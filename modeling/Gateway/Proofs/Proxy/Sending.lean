import Gateway.Pipeline.Assembly
import Gateway.Proofs.Job.Asking
import Gateway.Proofs.Pipeline.Passage
import Gateway.Proxy.Stage

/-! What a proxy sends to its backends. The last stage of a proxy's pipeline asks for a lease and then
sends at most one request over it, made of the exchange that it was handed. -/
namespace Gateway

namespace Proxy
variable {p : Proxy} {lease : Lease} {uri : Uri} {request : OutgoingRequest} {x : Exchange} {t : Trace}

/-- The request that an exchange makes at a backend. -/
def outgoing (p : Proxy) (lease : Lease) (uri : Uri) (x : Exchange) : OutgoingRequest :=
  ⟨x.method, uri, p.outgoingHeaders lease x.headers, x.takeBody.2⟩

/-- The request is sent right away, and nothing after it. -/
lemma asks_send_forward_iff {other : Lease} :
    (p.forward lease uri).Asks x t (.send other request) ↔
      t = [] ∧ other = lease ∧ request = p.outgoing lease uri x := by
  have taken : Exchange.dropped x x.takeBody.1 = [] := Exchange.dropped_eq_nil rfl
  unfold forward
  rw [Handler.asks_view_bind_iff]
  change Handler.Asks (Handler.change (fun _ => x.takeBody.1) >>= _) x t _ ↔ _
  have he : ∀ guard, Effect.send other request ≠ .release guard := nofun
  rw [Handler.asks_change_bind_iff he, taken]
  constructor
  · rintro ⟨t, rfl, h⟩
    rcases Handler.asks_perform_bind_iff.mp h with ⟨rfl, e⟩ | ⟨r, t, -, h⟩
    · injection e with same made
      exact ⟨rfl, same, made⟩
    · cases r with
      | unreachable =>
        rcases Handler.asks_perform_bind_iff.mp h with ⟨-, ⟨⟩⟩ | ⟨_, t, -, h⟩
        rcases Handler.asks_perform_bind_iff.mp h with ⟨-, ⟨⟩⟩ | ⟨_, t, -, h⟩
        rcases Handler.asks_perform_bind_iff.mp h with ⟨-, ⟨⟩⟩ | ⟨_, t, -, h⟩
        exact absurd h Handler.not_asks_throw
      | broken reason =>
        rcases Handler.asks_perform_bind_iff.mp h with ⟨-, ⟨⟩⟩ | ⟨_, t, -, h⟩
        rcases Handler.asks_perform_bind_iff.mp h with ⟨-, ⟨⟩⟩ | ⟨_, t, -, h⟩
        exact absurd h Handler.not_asks_throw
      | answered status headers body =>
        rcases Handler.asks_perform_bind_iff.mp h with ⟨-, ⟨⟩⟩ | ⟨_, t, -, h⟩
        obtain ⟨t, -, h⟩ := (Handler.asks_change_bind_iff he).mp h
        exact absurd h Handler.not_asks_pure
  · rintro ⟨rfl, rfl, rfl⟩
    exact ⟨[], rfl, Handler.asks_perform_bind_iff.mpr (.inl ⟨rfl, rfl⟩)⟩

/-- The stage sends a request only over the lease it was given, and only if the request's address can
be read. -/
theorem asks_send_iff : p.stage.handle.Asks x t (.send lease request) ↔
    t = [⟨.lease p.pool, .ok lease⟩] ∧
      ∃ uri, target lease x = .ok uri ∧ request = p.outgoing lease uri x := by
  unfold stage
  dsimp only
  rw [Handler.asks_perform_bind_iff]
  constructor
  · rintro (⟨-, ⟨⟩⟩ | ⟨r, t, rfl, h⟩)
    cases r with
    | error f => exact absurd h Handler.not_asks_throw
    | ok given =>
      dsimp only at h
      rw [Handler.asks_view_bind_iff] at h
      split at h
      · rcases Handler.asks_perform_bind_iff.mp h with ⟨-, ⟨⟩⟩ | ⟨_, t, -, h⟩
        exact absurd h Handler.not_asks_throw
      · next uri found =>
        obtain ⟨rfl, rfl, rfl⟩ := asks_send_forward_iff.mp h
        exact ⟨rfl, uri, found, rfl⟩
  · rintro ⟨rfl, uri, found, rfl⟩
    refine .inr ⟨.ok lease, [], rfl, ?_⟩
    dsimp only
    rw [Handler.asks_view_bind_iff, found]
    exact asks_send_forward_iff.mpr ⟨rfl, rfl, rfl⟩

end Proxy

namespace Assembly
variable {a : Assembly} {info : RouteInfo} {p : Proxy} {x y z : Exchange} {t : Trace} {lease : Lease}
  {request : OutgoingRequest}

/-- With the answers `t`, the pipeline of the proxy lets `x` through its security stage as `y` and hands
`z` to the proxy, which sends the request over the lease. -/
def Forwards (a : Assembly) (info : RouteInfo) (p : Proxy) (x : Exchange) (t : Trace) (y z : Exchange)
    (lease : Lease) (request : OutgoingRequest) : Prop :=
  ∃ u v w, t = u ++ v ++ w ∧ Passes (a.securedHead info) x u y ∧
    Passes ([Forwarding.credentialsStage, Forwarding.stage] ++ a.intercepted .afterAuth false) y v z ∧
    p.stage.handle.Asks z w (.send lease request)

/-- Whatever the last stage sends went through the security stage. -/
theorem exists_forwards_iff : (∃ y, a.Forwards info p x t y z lease request) ↔
    ∃ u v, t = u ++ v ∧ (a.proxy info p.stage).HandsLast x u z ∧
      p.stage.handle.Asks z v (.send lease request) := by
  have stages : (a.proxy info p.stage).stages = a.securedHead info ++
      ([Forwarding.credentialsStage, Forwarding.stage] ++ a.intercepted .afterAuth false) ++
        [p.stage] := rfl
  have parts {more : List Stage} {u : Trace} : Passes (a.securedHead info ++ more) x u z ↔
      ∃ v w y, u = v ++ w ∧ Passes (a.securedHead info) x v y ∧ Passes more y w z :=
    Passes.append_iff
  simp only [Pipeline.handsLast_iff stages, parts]
  constructor
  · rintro ⟨y, u, v, w, rfl, head, rest, sent⟩
    exact ⟨u ++ v, w, rfl, ⟨u, v, y, rfl, head, rest⟩, sent⟩
  · rintro ⟨_, w, rfl, ⟨u, v, y, rfl, head, rest⟩, sent⟩
    exact ⟨y, u, v, w, rfl, head, rest, sent⟩

/-- What is forwarded is sent in a run of the pipeline. -/
theorem Forwards.asks (h : a.Forwards info p x t y z lease request) :
    Job.Asks ((a.proxy info p.stage).execute x) t (.send lease request) := by
  obtain ⟨u, v, rfl, handed, sent⟩ := exists_forwards_iff.mp ⟨y, h⟩
  have way := (Pipeline.handsLast_iff rfl).mp handed
  have last (ran : List Stage) :
      Job.Asks (Pipeline.runStages ran [p.stage] z) v (.send lease request) := by
    rw [Pipeline.runStages_cons]
    exact Job.asks_bind_iff.mpr (.inl sent)
  exact Job.asks_bind_iff.mpr (.inl ((Pipeline.leads_of_passes way [] [p.stage]).asks (last _)))

end Assembly
end Gateway
