import Gateway.Proofs.Pipeline.Ownership
import Gateway.Proofs.Route.Registry
import Gateway.Server.Basic

/-! What the handling of a request holds. From dispatch to its answer, whatever route it takes, it gives
back every lease or leaves it to the answer. -/
namespace Gateway

/-- A service route was made for a service that holds nothing for itself. -/
def Route.ServiceOwns (a : Assembly) (route : Route) : Prop :=
  route.kind = .service → ∃ p : Plugin Service, p.behaviour.handle.Owns ∧
    route.pipeline = a.service route.info p.behaviour.stage p.behaviour.requiresContent

def RoutingTable.ServicesOwn (a : Assembly) (t : RoutingTable) : Prop :=
  ∀ route, route ∈ t.exact ∨ route ∈ t.below → route.ServiceOwns a

namespace Registry
variable {a : Assembly} {files : FileTree} {r s : Registry} {route : Route} {pools : List Pool}
  {t : RoutingTable}

/-- A route and its pools are added, at most. -/
structure AddsOnly (r : Registry) (route : Route) (pools : List Pool) (s : Registry) : Prop where
  assembly : s.assembly = r.assembly
  table : s.table = r.table
  pools : s.pools ⊆ r.pools ++ pools
  exact : s.exact ⊆ r.exact ++ [route]
  below : s.below ⊆ r.below ++ [route]

lemma addsOnly_of_bind (ok : (r.bind route pools).1 = .ok s) : AddsOnly r route pools s := by
  cases ht : r.table with
  | some t =>
    rw [bind_frozen (by rw [ht]; rfl)] at ok
    cases ok
  | none =>
    have more {α : Type} (list added : List α) : list ⊆ list ++ added := List.subset_append_left ..
    rcases bind_cases route pools ht with ⟨-, -, e⟩ | ⟨-, -, e⟩ | ⟨-, -, e⟩ | ⟨-, -, e⟩
    all_goals
      rw [e] at ok
      cases ok
    · exact ⟨rfl, rfl, fun _ => id, fun _ => id, more _ _⟩
    · exact ⟨rfl, rfl, more _ _, more _ _, more _ _⟩
    · exact ⟨rfl, rfl, fun _ => id, more _ _, fun _ => id⟩

/-- What no route stands for is answered by the pipeline of the assembly for it. -/
theorem Built.notManaged (h : Built a files r) (ht : r.table = some t) :
    t.notManaged = a.notManaged := by
  let Made (r : Registry) : Prop :=
    r.assembly = a ∧ ∀ t, r.table = some t → t.notManaged = a.notManaged
  have made : Made r := by
    refine h.induct ⟨rfl, nofun⟩ (fun r s route pools hr _ ok => ?_) fun r hr => ?_
    · have added := addsOnly_of_bind ok
      exact ⟨added.assembly.trans hr.1, added.table ▸ hr.2⟩
    · unfold Registry.freeze
      split
      · exact hr
      · refine ⟨hr.1, fun t ht => ?_⟩
        obtain rfl := Option.some.inj ht
        exact congrArg Assembly.notManaged hr.1
  exact made.2 t ht

end Registry

variable {a : Assembly} {files : FileTree} {g : Registry} {x : Exchange}

/-- A route holds in the end what its response holds. -/
lemma RoutingTable.Sound.owns_execute {t : RoutingTable} {route : Route} (h : t.Sound a) (ha : a.Owns)
    (services : t.ServicesOwn a) {path : String} (found : t.resolve path = some route)
    (once : x.guards.Nodup) : (route.pipeline.execute x).Owns Exchange.guards x.guards := by
  cases (h.proper found).assembled with
  | service p kind secured pipeline =>
    have listed := (RoutingTable.resolve_some found).imp And.left And.left
    obtain ⟨q, owns, made⟩ := services route listed kind
    rw [made]
    exact Assembly.owns_service ha (Stage.owns_service owns) _ once
  | proxy p kind secured pipeline =>
    rw [pipeline]
    exact Assembly.owns_proxy ha p.owns_stage once
  | static site kind secured pipeline =>
    rw [pipeline]
    exact Assembly.owns_static ha site.owns_stage once

/-- The handling of a request owns nothing at first, and in the end what its answer holds. -/
theorem Server.owns_dispatch {s : Server} (hg : Registry.Built a files g)
    (ht : g.table = some s.table) (ha : a.Owns) (services : s.table.ServicesOwn a) (r : Request) :
    (s.dispatch r).Owns (·.body.guards) [] := by
  have replied (y : Exchange) : y.response.toReply.body.guards = y.guards := by
    unfold Response.toReply Exchange.guards
    cases y.response.body <;> rfl
  have reply (y : Exchange) (once : y.guards.Nodup) :
      (Job.done y.response.toReply).Owns (·.body.guards) y.guards :=
    Job.owns_done (replied y ▸ once) fun g => by rw [replied]
  unfold dispatch
  dsimp only
  split
  · next route found =>
    have owns := (hg.sound.table _ ht).owns_execute ha services found
      (x := { Exchange.ofRequest r s.limits with
        relativePath := route.relativePath (Exchange.ofRequest r s.limits).path }) List.nodup_nil
    exact owns.bind reply
  · rw [hg.notManaged ht]
    exact (Assembly.owns_notManaged ha (x := Exchange.ofRequest r s.limits) List.nodup_nil).bind reply

end Gateway
