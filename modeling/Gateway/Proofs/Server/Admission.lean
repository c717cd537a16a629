import Mathlib.Data.List.Nodup
import Gateway.Proofs.Server.Gate
import Gateway.Server.Clock

/-! Admission of requests to a server. Those are counted that are being handled and those whose answer
has not been read, and no others. -/
namespace Gateway

lemma Failure.guards_reply (f : Failure) : f.reply.body.guards = [] := rfl

lemma Reply.guards_methodRefused (method : Method) : (methodRefused method).body.guards = [] := rfl

/-- Only a request for headers loses what its answer holds. -/
lemma Visitor.guards_sealed (v : Visitor) (r : Reply) :
    (v.sealed r).body.guards = if v.method = .head then [] else r.body.guards := by
  have named : (r.withRequestId v.requestId).body = r.body := by
    unfold Reply.withRequestId
    cases v.requestId <;> rfl
  have sized : (r.withRequestId v.requestId).withLength.body = r.body := by
    rw [← named]
    unfold Reply.withLength
    split <;> rfl
  rw [← sized]
  unfold Visitor.sealed Reply.withoutBodyFor
  split <;> rfl

namespace Visit

/-- A request holds its place while it is handled, and then as long as its answer does. -/
def holdsPlace (v : Visit) : Bool :=
  match v.standing with
  | .finished reply => reply.body.guards.contains .admission
  | _ => true

def place? (v : Visit) : Option Nat := if v.holdsPlace then some v.id else none

variable {v w : Visit} {list : List Visit} {id : Nat}

lemma holdsPlace_of_pending (h : v.isFinished = false) : v.holdsPlace = true := by
  unfold isFinished at h
  unfold holdsPlace
  cases standing : v.standing with
  | finished reply =>
    rw [standing] at h
    cases h
  | _ => rfl

/-- An answer that holds nothing keeps no place. -/
lemma holdsPlace_answered {v : Visitor} {r : Reply} (bare : r.body.guards = []) :
    (v.answered r).holdsPlace = false := by
  change (v.sealed r).body.guards.contains .admission = false
  rw [v.guards_sealed, bare, ite_self]
  rfl

/-- Whoever was let in holds a place wherever he stands. -/
lemma holdsPlace_standingAt {v : Visitor} (served : v.method ∈ Method.served) (standing : Standing Reply) :
    (v.standingAt standing).holdsPlace = true := by
  cases standing with
  | finished reply =>
    change (v.sealed (reply.guarded .admission)).body.guards.contains .admission = true
    have not_head : v.method ≠ .head := fun head => by
      rw [head] at served
      revert served
      decide
    rw [v.guards_sealed, if_neg not_head]
    simp [Reply.guarded, Body.guarded]
  | asleep due rest => rfl
  | queued pool ticket rest => rfl

lemma toVisitor_standingAt (v : Visitor) (standing : Standing Reply) :
    (v.standingAt standing).toVisitor = v := by
  cases standing <;> rfl

lemma eq_of_id (distinct : (list.map (·.id)).Nodup) (hv : v ∈ list) (hw : w ∈ list) (e : w.id = v.id) :
    w = v :=
  List.inj_on_of_nodup_map distinct hw hv e

lemma places_eq (list : List Visit) :
    list.filterMap place? = (list.filter holdsPlace).map (·.id) := by
  rw [← List.filterMap_eq_map, List.filterMap_filter]
  rfl

/-- The places without one of them. -/
lemma erase_places (distinct : (list.map (·.id)).Nodup) (id : Nat) :
    (list.filterMap place?).erase id =
      list.filterMap fun w => if w.id = id then none else w.place? := by
  have once : (list.filterMap place?).Nodup := by
    rw [places_eq]
    exact distinct.sublist (List.filter_sublist.map _)
  rw [once.erase_eq_filter, List.filter_filterMap]
  refine List.filterMap_congr fun w _ => ?_
  unfold place?
  by_cases same : w.id = id
  · rw [if_pos same]
    split <;> simp [same]
  · rw [if_neg same]
    split <;> simp [same]

/-- A request that goes on keeps its place. -/
lemma places_put (distinct : (list.map (·.id)).Nodup) (hv : v ∈ list) (same : w.id = v.id)
    (kept : w.holdsPlace = v.holdsPlace) :
    (list.map fun u => if u.id = w.id then w else u).filterMap place? = list.filterMap place? := by
  rw [List.filterMap_map]
  refine List.filterMap_congr fun u hu => ?_
  dsimp only [Function.comp_apply]
  split
  · next e =>
    obtain rfl := eq_of_id distinct hv hu (e.trans same)
    unfold place?
    rw [kept, same]
  · rfl

/-- One that holds nothing any more loses it. -/
lemma places_put_idle (distinct : (list.map (·.id)).Nodup) (idle : w.holdsPlace = false) :
    (list.map fun u => if u.id = w.id then w else u).filterMap place? =
      (list.filterMap place?).erase w.id := by
  rw [erase_places distinct, List.filterMap_map]
  refine List.filterMap_congr fun u _ => ?_
  dsimp only [Function.comp_apply]
  split
  · rw [place?, if_neg (by rw [idle]; exact Bool.false_ne_true)]
  · rfl

/-- So does one that goes. -/
lemma places_filter (distinct : (list.map (·.id)).Nodup) (id : Nat) :
    (list.filter (·.id ≠ id)).filterMap place? = (list.filterMap place?).erase id := by
  rw [erase_places distinct, List.filterMap_filter]
  refine List.filterMap_congr fun u _ => ?_
  by_cases same : u.id = id <;> simp [same]

end Visit

namespace Server

/-- What happens on a server, one thing at a time. -/
inductive Move where
  | arrive (env : Surroundings) (r : Request)
  /-- A request goes on with what is left of it. -/
  | goOn (env : Surroundings) (request : Nat) (rest : Job Reply)
  /-- A request is given up because it took too long. -/
  | giveUp (request : Nat)
  /-- An answer has been read or is dropped, or a request is called off by its sender. -/
  | dismiss (request : Nat)
  | close
  | terminate
  /-- Time passes, or something else changes that requests share. -/
  | share (resources : Resources)

/-- Whether the gate is closed after a move. -/
def Move.closes (closed : Bool) : Move → Bool
  | .close => true
  | _ => closed

/-- The move is not the end of this request. -/
def Move.Spares (request : Nat) : Move → Prop
  | .giveUp id => id ≠ request
  | .dismiss id => id ≠ request
  | _ => True

/-- A request that is being handled. -/
def pending? (s : Server) (id : Nat) : Option Visit := (s.visit? id).filter (!·.isFinished)

def step (s : Server) : Move → Server
  | .arrive env r => (s.arrive env r).1
  | .goOn env id rest =>
    match s.pending? id with
    | some v => s.proceed env v rest
    | none => s
  | .giveUp id =>
    match s.pending? id with
    | some v => s.giveUp v
    | none => s
  | .dismiss id =>
    match s.visit? id with
    | some v => s.dismiss v
    | none => s
  | .close => { s with gate := s.gate.close }
  | .terminate => { s with gate := s.gate.terminate }
  | .share resources => { s with resources }

def follow (s : Server) (moves : List Move) : Server := moves.foldl step s

/-- The requests that hold a place. -/
def inside (s : Server) : List Nat := s.visits.filterMap Visit.place?

/-- Requests have numbers of their own, those that are being handled have methods that are served, and
the gate keeps the places of those that hold one. -/
structure Orderly (places : Nat) (closed : Bool) (s : Server) : Prop where
  distinct : (s.visits.map (·.id)).Nodup
  arrived : ∀ v ∈ s.visits, v.id < s.arrivals
  served : ∀ v ∈ s.visits, v.isFinished = false → v.method ∈ Method.served
  gate : Gate.Keeps places ⟨s.inside, closed⟩ s.gate

variable {places : Nat} {closed : Bool} {s t : Server} {v w : Visit} {id : Nat} {env : Surroundings} {r : Request}
  {rest : Job Reply}

lemma mem_of_visit? (found : s.visit? id = some v) : v ∈ s.visits ∧ v.id = id := by
  have same := List.find?_some found
  exact ⟨List.mem_of_find?_eq_some found, by simpa using same⟩

lemma mem_of_pending? (found : s.pending? id = some v) :
    v ∈ s.visits ∧ v.id = id ∧ v.isFinished = false := by
  obtain ⟨visit, pending⟩ := Option.filter_eq_some_iff.mp found
  obtain ⟨hv, same⟩ := mem_of_visit? visit
  exact ⟨hv, same, by simpa using pending⟩

lemma mem_inside : id ∈ s.inside ↔ ∃ v ∈ s.visits, v.holdsPlace = true ∧ v.id = id := by
  unfold inside Visit.place?
  simp only [List.mem_filterMap, Option.ite_none_right_eq_some, Option.some.injEq]

/-- The visitor that a request becomes. -/
def visitor (env : Surroundings) (s : Server) (r : Request) : Visitor where
  id := s.arrivals
  method := r.method
  requestId := (s.identify env r).2.headers.first? Exchange.requestIdHeader
  deadline := s.resources.now + s.patience

/-- Only the id of a request is drawn, and the request is given it. -/
lemma exists_identify (env : Surroundings) (s : Server) (r : Request) :
    ∃ drawn q, s.identify env r = ({ s with requestIdsDrawn := drawn }, q) ∧ q.method = r.method := by
  unfold identify
  split
  · exact ⟨_, _, rfl, rfl⟩
  · exact ⟨_, _, rfl, rfl⟩

lemma arrive_eq (env : Surroundings) (s : Server) (r : Request) :
    (s.arrive env r).1 = match (s.identify env r).1.letIn s.arrivals r.method with
      | (t, .refused reply) => t.addVisit ((s.visitor env r).answered reply)
      | (t, .admitted) =>
        (t.run env (s.visitor env r) (t.job (s.identify env r).2)).1.addVisit
          (t.run env (s.visitor env r) (t.job (s.identify env r).2)).2 := by
  obtain ⟨drawn, q, identified, method⟩ := exists_identify env s r
  have visitor : s.visitor env r =
      { id := s.arrivals, method := q.method, requestId := q.headers.first? Exchange.requestIdHeader
        deadline := s.resources.now + s.patience } := by
    rw [Server.visitor, identified, method]
  rw [arrive, visitor, identified, ← method]
  dsimp only
  generalize letIn _ s.arrivals q.method = outcome
  obtain ⟨t, admission⟩ := outcome
  cases admission <;> rfl

lemma arrivals_le_step (s : Server) (m : Move) : s.arrivals ≤ (s.step m).arrivals := by
  cases m with
  | arrive env r =>
    have next : (s.arrive env r).1.arrivals = s.arrivals + 1 := by
      rw [arrive_eq]
      split
      · rfl
      · exact congrArg (Visitor.id · + 1) (Visit.toVisitor_standingAt ..)
    exact next ▸ Nat.le_succ _
  | goOn env id rest =>
    unfold step
    dsimp only
    split <;> exact Nat.le_refl _
  | giveUp id =>
    unfold step
    dsimp only
    split <;> exact Nat.le_refl _
  | dismiss id =>
    unfold step
    dsimp only
    split
    · unfold dismiss
      split <;> exact Nat.le_refl _
    · exact Nat.le_refl _
  | _ => exact Nat.le_refl _

/-- The request is answered at the door. It draws its id and something is noted, and that is all. -/
structure Refuses (env : Surroundings) (s : Server) (r : Request) (reply : Reply)
    (events : List Event) : Prop where
  arrive : (s.arrive env r).1 =
    { (s.identify env r).1 with resources := s.resources.note events }.addVisit
      ((s.visitor env r).answered reply)
  gate : (s.arrive env r).1.gate = s.gate

/-- Who gets a place when a request arrives. -/
def entrants (places : Nat) (closed : Bool) (s : Server) (r : Request) : List Nat :=
  match Gate.Ledger.rejection? places ⟨s.inside, closed⟩ with
  | some _ => []
  | none => if r.method ∈ Method.served then [s.arrivals] else []

/-- Who holds a place after a move: the same as before, but for a request that is let in, one that is
given up on its way, and one that goes. -/
def insideAfter (places : Nat) (closed : Bool) (s : Server) : Move → List Nat
  | .arrive _ r => s.inside ++ s.entrants places closed r
  | .giveUp id => if (s.pending? id).isSome then s.inside.erase id else s.inside
  | .dismiss id => s.inside.erase id
  | _ => s.inside

section Arriving
variable {g : Gate} {rejection : Rejection}

/-- Who is turned away at the door is refused. -/
lemma refuses_of_letIn {reply : Reply} {events : List Event}
    (letIn : (s.identify env r).1.letIn s.arrivals r.method =
      ({ (s.identify env r).1 with resources := s.resources.note events }, .refused reply)) :
    s.Refuses env r reply events := by
  obtain ⟨drawn, q, identified, -⟩ := exists_identify env s r
  have arrive := arrive_eq env s r
  rw [letIn] at arrive
  refine ⟨arrive, ?_⟩
  rw [arrive, identified]
  rfl

lemma refuses_of_rejected (rejected : s.gate.letIn s.arrivals = .error rejection) :
    s.Refuses env r rejection.failure.reply rejection.events := by
  obtain ⟨drawn, q, identified, -⟩ := exists_identify env s r
  apply refuses_of_letIn
  rw [Server.letIn, identified, rejected]

/-- A place that is given back at once was never taken. -/
lemma refuses_of_unserved (entered : s.gate.letIn s.arrivals = .ok g)
    (back : g.release s.arrivals = s.gate) (unserved : r.method ∉ Method.served) :
    s.Refuses env r (.methodRefused r.method) [] := by
  obtain ⟨drawn, q, identified, -⟩ := exists_identify env s r
  have quiet : s.resources.note [] = s.resources := by
    rw [Resources.note, List.append_nil]
  apply refuses_of_letIn
  rw [Server.letIn, identified, entered]
  dsimp only
  rw [if_neg unserved, back, quiet]

lemma arrive_of_served (entered : s.gate.letIn s.arrivals = .ok g) (served : r.method ∈ Method.served) :
    ∃ resources standing, (s.arrive env r).1 =
      { (s.identify env r).1 with resources, gate := g }.addVisit
        ((s.visitor env r).standingAt standing) := by
  obtain ⟨drawn, q, identified, -⟩ := exists_identify env s r
  have letIn : (s.identify env r).1.letIn s.arrivals r.method =
      ({ (s.identify env r).1 with gate := g }, .admitted) := by
    rw [Server.letIn, identified, entered]
    dsimp only
    rw [if_pos served]
  have arrive := arrive_eq env s r
  rw [letIn] at arrive
  exact ⟨_, _, arrive⟩

end Arriving

namespace Orderly

lemma fresh (h : Orderly places closed s) : s.arrivals ∉ s.inside := fun found => by
  obtain ⟨v, hv, -, same⟩ := mem_inside.mp found
  exact absurd (h.arrived v hv) (by omega)

lemma nodup_inside (h : Orderly places closed s) : s.inside.Nodup := by
  rw [inside, Visit.places_eq]
  exact h.distinct.sublist (List.filter_sublist.map _)

/-- A place is given back. -/
lemma release (h : Orderly places closed s) (id : Nat) :
    Gate.Keeps places ⟨s.inside.erase id, closed⟩ (s.gate.release id) :=
  h.gate.release

lemma put (h : Orderly places closed s)
    (visits : t.visits = s.visits.map fun u => if u.id = w.id then w else u)
    (arrivals : t.arrivals = s.arrivals) (served : w.isFinished = false → w.method ∈ Method.served)
    (gate : Gate.Keeps places ⟨t.inside, closed⟩ t.gate) : Orderly places closed t where
  distinct := by
    have ids : t.visits.map (·.id) = s.visits.map (·.id) := by
      rw [visits, List.map_map]
      refine List.map_congr_left fun u _ => ?_
      dsimp only [Function.comp_apply]
      split
      · next e => exact e.symm
      · rfl
    rw [ids]
    exact h.distinct
  arrived x hx := by
    rw [visits] at hx
    obtain ⟨u, hu, rfl⟩ := List.mem_map.mp hx
    rw [arrivals]
    by_cases e : u.id = w.id
    · rw [if_pos e, ← e]
      exact h.arrived u hu
    · rw [if_neg e]
      exact h.arrived u hu
  served x hx pending := by
    rw [visits] at hx
    obtain ⟨u, hu, rfl⟩ := List.mem_map.mp hx
    by_cases e : u.id = w.id
    · rw [if_pos e] at pending ⊢
      exact served pending
    · rw [if_neg e] at pending ⊢
      exact h.served u hu pending
  gate := gate

/-- A request that goes on keeps its place. -/
lemma proceed (h : Orderly places closed s) (hv : v ∈ s.visits) (pending : v.isFinished = false) :
    Orderly places closed (s.proceed env v rest) ∧ (s.proceed env v rest).inside = s.inside := by
  have served := h.served v hv pending
  let w := v.toVisitor.standingAt (s.resources.run env v.id rest).2
  have visitor : w.toVisitor = v.toVisitor := Visit.toVisitor_standingAt ..
  have visits : (s.proceed env v rest).visits =
      s.visits.map fun u => if u.id = w.id then w else u := rfl
  have holds : w.holdsPlace = v.holdsPlace := by
    rw [Visit.holdsPlace_standingAt served, Visit.holdsPlace_of_pending pending]
  have inside : (s.proceed env v rest).inside = s.inside := by
    rw [Server.inside, visits]
    exact Visit.places_put h.distinct hv (congrArg Visitor.id visitor) holds
  refine ⟨h.put visits rfl (fun _ => ?_) ?_, inside⟩
  · rw [congrArg Visitor.method visitor]
    exact served
  · rw [inside]
    exact h.gate

/-- A request that is given up loses it. -/
lemma giveUp (h : Orderly places closed s) (v : Visit) :
    Orderly places closed (s.giveUp v) ∧ (s.giveUp v).inside = s.inside.erase v.id := by
  let w := v.toVisitor.answered .timeout
  have visits : (s.giveUp v).visits = s.visits.map fun u => if u.id = w.id then w else u := rfl
  have inside : (s.giveUp v).inside = s.inside.erase v.id := by
    rw [Server.inside, visits]
    exact Visit.places_put_idle h.distinct (Visit.holdsPlace_answered rfl)
  refine ⟨h.put visits rfl nofun ?_, inside⟩
  rw [inside]
  exact h.release v.id

/-- What held no place gives none back. -/
lemma release_of_idle (h : Orderly places closed s) (hv : v ∈ s.visits) (idle : v.holdsPlace = false) :
    v.id ∉ s.inside := fun found => by
  obtain ⟨u, hu, holds, same⟩ := mem_inside.mp found
  obtain rfl := Visit.eq_of_id h.distinct hv hu same
  rw [idle] at holds
  cases holds

/-- A request that goes gives back the place it holds, if it holds one. -/
lemma dismiss (h : Orderly places closed s) (hv : v ∈ s.visits) :
    Orderly places closed (s.dismiss v) ∧ (s.dismiss v).inside = s.inside.erase v.id := by
  have visits : (s.dismiss v).visits = s.visits.filter (·.id ≠ v.id) := by
    unfold Server.dismiss
    split <;> rfl
  have arrivals : (s.dismiss v).arrivals = s.arrivals := by
    unfold Server.dismiss
    split <;> rfl
  have gate : (s.dismiss v).gate = if v.holdsPlace then s.gate.release v.id else s.gate := by
    unfold Server.dismiss Visit.holdsPlace
    cases v.standing with
    | finished reply => simp [Server.release]
    | asleep due rest => rfl
    | queued pool ticket rest => rfl
  have inside : (s.dismiss v).inside = s.inside.erase v.id := by
    rw [Server.inside, visits]
    exact Visit.places_filter h.distinct v.id
  refine ⟨⟨?_, fun u hu => ?_, fun u hu => ?_, ?_⟩, inside⟩
  · rw [visits]
    exact h.distinct.sublist (List.filter_sublist.map _)
  · rw [visits] at hu
    rw [arrivals]
    exact h.arrived u (List.mem_of_mem_filter hu)
  · rw [visits] at hu
    exact h.served u (List.mem_of_mem_filter hu)
  · rw [inside, gate]
    cases holds : v.holdsPlace with
    | true => exact h.release v.id
    | false =>
      rw [List.erase_of_not_mem (h.release_of_idle hv holds)]
      exact h.gate

/-- Someone comes. -/
lemma addVisit (h : Orderly places closed s) (visits : t.visits = s.visits) (v : Visit)
    (new : v.id = s.arrivals) (served : v.isFinished = false → v.method ∈ Method.served)
    (gate : Gate.Keeps places ⟨s.inside ++ v.place?.toList, closed⟩ t.gate) :
    Orderly places closed (t.addVisit v) ∧ (t.addVisit v).inside = s.inside ++ v.place?.toList := by
  have all : (t.addVisit v).visits = s.visits ++ [v] := congrArg (· ++ [v]) visits
  have inside : (t.addVisit v).inside = s.inside ++ v.place?.toList := by
    rw [Server.inside, all, List.filterMap_append]
    cases e : v.place? <;> simp [e, Server.inside]
  refine ⟨⟨?_, ?_, ?_, ?_⟩, inside⟩
  · rw [all, List.map_append, List.nodup_append]
    refine ⟨h.distinct, List.nodup_singleton _, fun i hi j hj => ?_⟩
    obtain ⟨u, hu, rfl⟩ := List.mem_map.mp hi
    obtain rfl := List.mem_singleton.mp hj
    exact Nat.ne_of_lt (Nat.lt_of_lt_of_eq (h.arrived u hu) new.symm)
  · rw [all, List.forall_mem_append, List.forall_mem_singleton]
    have next : (t.addVisit v).arrivals = s.arrivals + 1 := congrArg (· + 1) new
    rw [next]
    exact ⟨fun u hu => Nat.lt_succ_of_lt (h.arrived u hu), by omega⟩
  · rw [all, List.forall_mem_append, List.forall_mem_singleton]
    exact ⟨h.served, served⟩
  · rw [inside]
    exact gate

lemma release_letIn (h : Orderly places closed s) (room : 0 < s.gate.free) :
    Gate.release { s.gate with
      free := s.gate.free - 1
      inFlight := s.gate.inFlight + 1
      holders := s.gate.holders ++ [s.arrivals] } s.arrivals = s.gate := by
  have new : s.arrivals ∉ s.gate.holders := by
    rw [h.gate.holders]
    exact h.fresh
  unfold Gate.release
  rw [if_pos (List.mem_append_right _ List.mem_cons_self)]
  have holders : (s.gate.holders ++ [s.arrivals]).erase s.arrivals = s.gate.holders := by
    rw [List.erase_append_right _ new, List.erase_cons_head, List.append_nil]
  dsimp only
  rw [holders, Nat.add_sub_cancel, Nat.sub_add_cancel room]

/-- What becomes of a request that arrives. -/
theorem arrive (h : Orderly places closed s) (env : Surroundings) (r : Request) :
    match Gate.Ledger.rejection? places ⟨s.inside, closed⟩ with
    | some rejection => s.Refuses env r rejection.failure.reply rejection.events
    | none =>
      if r.method ∈ Method.served then
        ∃ resources standing, (s.arrive env r).1 =
          { (s.identify env r).1 with resources, gate := s.gate.enter s.arrivals }.addVisit
            ((s.visitor env r).standingAt standing)
      else s.Refuses env r (.methodRefused r.method) [] := by
  have entered := h.gate.letIn s.arrivals
  cases rejected : Gate.Ledger.rejection? places ⟨s.inside, closed⟩ with
  | some rejection =>
    rw [rejected] at entered
    exact refuses_of_rejected entered
  | none =>
    rw [rejected] at entered
    dsimp only at entered ⊢
    split
    · next served =>
      rw [Gate.enter, entered]
      exact arrive_of_served entered served
    · next unserved =>
      exact refuses_of_unserved entered (h.release_letIn (h.gate.room rejected)) unserved

lemma refused {reply : Reply} {events : List Event} (h : Orderly places closed s)
    (refuses : s.Refuses env r reply events) (bare : reply.body.guards = []) :
    Orderly places closed (s.arrive env r).1 ∧ (s.arrive env r).1.inside = s.inside := by
  obtain ⟨drawn, q, identified, -⟩ := exists_identify env s r
  have idle : ((s.visitor env r).answered reply).place? = none := by
    rw [Visit.place?, Visit.holdsPlace_answered bare]
    rfl
  have added := h.addVisit (t := { s with requestIdsDrawn := drawn, resources := s.resources.note events })
    rfl ((s.visitor env r).answered reply) rfl nofun (by
      rw [idle, Option.toList_none, List.append_nil]
      exact h.gate)
  rw [idle, Option.toList_none, List.append_nil] at added
  rw [refuses.arrive, identified]
  exact added

lemma admitted (h : Orderly places closed s)
    (welcome : Gate.Ledger.rejection? places ⟨s.inside, closed⟩ = none)
    (served : r.method ∈ Method.served)
    (arrived : ∃ resources standing, (s.arrive env r).1 =
      { (s.identify env r).1 with resources, gate := s.gate.enter s.arrivals }.addVisit
        ((s.visitor env r).standingAt standing)) :
    Orderly places closed (s.arrive env r).1 ∧ (s.arrive env r).1.inside = s.inside ++ [s.arrivals] := by
  obtain ⟨drawn, q, identified, -⟩ := exists_identify env s r
  obtain ⟨resources, standing, arrived⟩ := arrived
  let v := (s.visitor env r).standingAt standing
  have visitor : v.toVisitor = s.visitor env r := Visit.toVisitor_standingAt ..
  have new : v.id = s.arrivals := congrArg Visitor.id visitor
  have place : v.place? = some s.arrivals := by
    rw [Visit.place?, Visit.holdsPlace_standingAt served, new]
    rfl
  have entered := h.gate.enter s.arrivals
  rw [Gate.Ledger.enter, welcome] at entered
  have added := h.addVisit
    (t := { s with requestIdsDrawn := drawn, resources, gate := s.gate.enter s.arrivals }) rfl v new
    (fun _ => by rw [congrArg Visitor.method visitor]; exact served) (by
      rw [place, Option.toList_some]
      exact entered)
  rw [place, Option.toList_some] at added
  rw [arrived, identified]
  exact added

/-- A request that arrives is given a place or leaves no trace at the gate. -/
lemma arriving (h : Orderly places closed s) (env : Surroundings) (r : Request) :
    Orderly places closed (s.arrive env r).1 ∧
      (s.arrive env r).1.inside = s.inside ++ s.entrants places closed r := by
  have arrive := h.arrive env r
  unfold entrants
  cases welcome : Gate.Ledger.rejection? places ⟨s.inside, closed⟩ with
  | some rejection =>
    rw [welcome] at arrive
    dsimp only at arrive ⊢
    rw [List.append_nil]
    exact h.refused arrive rejection.failure.guards_reply
  | none =>
    rw [welcome] at arrive
    dsimp only at arrive ⊢
    by_cases served : r.method ∈ Method.served
    · rw [if_pos served] at arrive ⊢
      exact h.admitted welcome served arrive
    · rw [if_neg served] at arrive ⊢
      rw [List.append_nil]
      exact h.refused arrive (Reply.guards_methodRefused _)

/-- Every move leaves the server in order, and moves at most the places that it should. -/
theorem step (h : Orderly places closed s) (m : Move) :
    Orderly places (m.closes closed) (s.step m) ∧
      (s.step m).inside = s.insideAfter places closed m := by
  cases m with
  | arrive env r => exact h.arriving env r
  | goOn env id rest =>
    unfold Server.step insideAfter
    dsimp only [Move.closes]
    cases found : s.pending? id with
    | some v =>
      obtain ⟨hv, -, pending⟩ := mem_of_pending? found
      exact h.proceed hv pending
    | none => exact ⟨h, rfl⟩
  | giveUp id =>
    unfold Server.step insideAfter
    dsimp only [Move.closes]
    cases found : s.pending? id with
    | some v =>
      obtain ⟨-, rfl, -⟩ := mem_of_pending? found
      exact h.giveUp v
    | none => exact ⟨h, rfl⟩
  | dismiss id =>
    unfold Server.step insideAfter
    dsimp only [Move.closes]
    cases found : s.visit? id with
    | some v =>
      obtain ⟨hv, rfl⟩ := mem_of_visit? found
      exact h.dismiss hv
    | none =>
      refine ⟨h, (List.erase_of_not_mem fun inside => ?_).symm⟩
      obtain ⟨v, hv, -, same⟩ := mem_inside.mp inside
      have absent := List.find?_eq_none.mp found v hv
      simp [same] at absent
  | close => exact ⟨{ h with gate := { h.gate with accepting := rfl } }, rfl⟩
  | terminate => exact ⟨{ h with gate := { h.gate with } }, rfl⟩
  | share resources => exact ⟨{ h with }, rfl⟩

theorem follow (h : Orderly places closed s) (moves : List Move) :
    Orderly places (moves.foldl Move.closes closed) (s.follow moves) := by
  induction moves generalizing s closed with
  | nil => exact h
  | cons m rest ih => exact ih (h.step m).1

/-- A place is held until the request is given up or goes. -/
lemma kept {moves : List Move} (h : Orderly places closed s) (inside : id ∈ s.inside)
    (spared : ∀ m ∈ moves, m.Spares id) : id ∈ (s.follow moves).inside := by
  induction moves generalizing s closed with
  | nil => exact inside
  | cons m rest ih =>
    obtain ⟨first, others⟩ := List.forall_mem_cons.mp spared
    obtain ⟨next, after⟩ := h.step m
    refine ih next ?_ others
    rw [after]
    cases m with
    | arrive env r => exact List.mem_append_left _ inside
    | giveUp i =>
      unfold insideAfter
      dsimp only
      split
      · exact (List.mem_erase_of_ne (Ne.symm first)).mpr inside
      · exact inside
    | dismiss i => exact (List.mem_erase_of_ne (Ne.symm first)).mpr inside
    | _ => exact inside

/-- Who has no place does not get one later. -/
lemma gone (h : Orderly places closed s) (old : id < s.arrivals) (outside : id ∉ s.inside)
    (moves : List Move) : id ∉ (s.follow moves).inside := by
  induction moves generalizing s closed with
  | nil => exact outside
  | cons m rest ih =>
    obtain ⟨next, after⟩ := h.step m
    refine ih next (Nat.lt_of_lt_of_le old (arrivals_le_step s m)) ?_
    rw [after]
    cases m with
    | arrive env r =>
      have other : id ∉ s.entrants places closed r := fun new => by
        unfold entrants at new
        split at new
        · cases new
        · split at new
          · exact absurd (List.mem_singleton.mp new) (Nat.ne_of_lt old)
          · cases new
      exact fun found => (List.mem_append.mp found).elim outside other
    | giveUp i =>
      unfold insideAfter
      dsimp only
      split
      · exact fun found => outside (List.mem_of_mem_erase found)
      · exact outside
    | dismiss i => exact fun found => outside (List.mem_of_mem_erase found)
    | _ => exact outside

end Orderly

/-- The account of a server with so many places after some moves. -/
structure Accounted (places : Nat) (moves : List Move) (s : Server) : Prop where
  bounded : s.inside.length ≤ places
  inFlight : s.gate.inFlight = s.inside.length
  free : s.gate.free + s.inside.length = places
  /-- Requests are refused while the server drains, while it is full, and if their method is not
  served. All others are let in. -/
  arrive : ∀ env r,
    if moves.any (Move.closes false) then
      s.Refuses env r (Rejection.failure .draining).reply (Rejection.events .draining)
    else if s.inside.length = places then
      s.Refuses env r (Rejection.failure .limitReached).reply (Rejection.events .limitReached)
    else if r.method ∈ Method.served then (s.arrive env r).1.inside = s.inside ++ [s.arrivals]
    else s.Refuses env r (.methodRefused r.method) []
  kept : ∀ id ∈ s.inside, ∀ more, (∀ m ∈ more, Move.Spares id m) → id ∈ (s.follow more).inside
  dismissed : ∀ id more, id < s.arrivals → id ∉ (s.follow (.dismiss id :: more)).inside
  givenUp : ∀ id more, (s.pending? id).isSome → id ∉ (s.follow (.giveUp id :: more)).inside

lemma closes_foldl (moves : List Move) :
    moves.foldl Move.closes closed = (closed || moves.any (Move.closes false)) := by
  induction moves generalizing closed with
  | nil => simp
  | cons m rest ih =>
    have one : m.closes closed = (closed || m.closes false) := by
      cases m <;> simp [Move.closes]
    rw [List.foldl_cons, ih, one, List.any_cons, Bool.or_assoc]

lemma orderly_ofConfig (c : Config) (table : RoutingTable) (resources : Resources) :
    Orderly c.requestsLimit false (ofConfig c table resources) :=
  ⟨List.nodup_nil, nofun, nofun, Gate.Keeps.ofLimit⟩

lemma accounted_follow (c : Config) (table : RoutingTable) (resources : Resources)
    (moves : List Move) :
    Accounted c.requestsLimit moves ((ofConfig c table resources).follow moves) := by
  have h := (orderly_ofConfig c table resources).follow moves
  rw [closes_foldl, Bool.false_or] at h
  generalize (ofConfig c table resources).follow moves = s at h
  refine ⟨h.gate.bounded, h.gate.inFlight, h.gate.free, fun env r => ?_,
    fun id inside more spared => h.kept inside spared, fun id more old => ?_,
    fun id more pending => ?_⟩
  · have arrive := h.arrive env r
    unfold Gate.Ledger.rejection? at arrive
    by_cases closed : moves.any (Move.closes false) = true
    · rw [if_pos closed] at arrive ⊢
      exact arrive
    · rw [if_neg closed] at arrive ⊢
      by_cases full : s.inside.length = c.requestsLimit
      · rw [if_pos full] at arrive ⊢
        exact arrive
      · rw [if_neg full] at arrive ⊢
        dsimp only at arrive
        by_cases served : r.method ∈ Method.served
        · rw [if_pos served] at arrive ⊢
          refine (h.admitted ?_ served arrive).2
          unfold Gate.Ledger.rejection?
          rw [if_neg closed, if_neg full]
        · rw [if_neg served] at arrive ⊢
          exact arrive
  · obtain ⟨next, after⟩ := h.step (.dismiss id)
    refine next.gone (Nat.lt_of_lt_of_le old (arrivals_le_step s _)) ?_ more
    rw [after]
    exact h.nodup_inside.not_mem_erase
  · obtain ⟨next, after⟩ := h.step (.giveUp id)
    obtain ⟨v, found⟩ := Option.isSome_iff_exists.mp pending
    obtain ⟨hv, rfl, -⟩ := mem_of_pending? found
    refine next.gone (Nat.lt_of_lt_of_le (h.arrived v hv) (arrivals_le_step s _)) ?_ more
    rw [after, insideAfter, if_pos pending]
    exact h.nodup_inside.not_mem_erase

end Server
end Gateway
