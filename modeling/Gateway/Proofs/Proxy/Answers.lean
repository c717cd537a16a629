import Gateway.Proofs.Exchange.Reading
import Gateway.Proofs.Proxy.Relaying

/-! What callers learn of the answer of a backend. If its content is read for the interceptors of the
response, it is held to the limits of request content and refused with the same failures. -/
namespace Gateway

/-- The fault is on this side, or further behind. -/
def Status.IsServerError (s : Status) : Prop := 500 ≤ s.code ∧ s.code < 600

namespace Body
variable {b : Body} {limits : ContentLimits} {declared : Option Nat} {f : Failure}

lemma code_of_refusal? (h : b.refusal? limits declared = some f) :
    f.status.code = 413 ∨ f.status.code = 400 := by
  unfold refusal? at h
  split at h
  · obtain rfl := Option.some.inj h
    exact .inl rfl
  · obtain ⟨reason, -, rfl⟩ := Option.map_eq_some_iff.mp h
    exact .inr rfl

end Body

namespace Response
variable {r : Response} {limits : ContentLimits} {body : Body}

lemma status_buffer : (r.buffer limits).1.status = r.status := by
  unfold buffer
  dsimp only
  split
  · split <;> rfl
  · rfl

/-- A stream is refused like the content of a request. -/
lemma buffer_of_stream (streamed : r.body = .stream body) : (r.buffer limits).2 =
    match body.refusal? limits none with
    | none => .ok ()
    | some f => .error f := by
  have read := body.buffer_eq limits none
  unfold buffer
  rw [streamed]
  dsimp only
  cases refused : body.refusal? limits none with
  | none =>
    rw [refused] at read
    obtain ⟨⟨c, read, -⟩, -⟩ := read
    rw [read]
  | some f =>
    rw [refused] at read
    rw [read]

end Response

/-- The interceptor leaves the status of the response, and when it fails it does not blame the caller. -/
structure Interceptor.Inspects (i : Interceptor) : Prop where
  status : i.handle.Keeps (·.response.status)
  failure : ∀ x t f y, i.handle.Runs x t (.error f) y → f.status.IsServerError

/-- The status of the response is the given one, or that of a fault of the server. -/
def Exchange.Blameless (s : Status) (x : Exchange) : Prop :=
  x.response.status = s ∨ x.response.status.IsServerError

namespace Interceptor
variable {i : Interceptor} {list : List Interceptor} {s : Status} {x z : Exchange} {t : Trace}

lemma Inspects.blameless (h : i.Inspects) (run : i.Handled x t z) (start : x.Blameless s) :
    z.Blameless s := by
  rcases run with done | ⟨u, f, y, -, failed, fails⟩
  · have kept : z.response.status = x.response.status := h.status _ rfl done
    rwa [Exchange.Blameless, kept]
  · right
    rw [fails.status]
    exact h.failure x u f y failed

/-- Interceptors that only inspect blame nobody, however many there are. -/
lemma HandledAll.blameless (h : HandledAll list x t z) (inspect : ∀ i ∈ list, i.Inspects)
    (start : x.Blameless s) : z.Blameless s := by
  induction list generalizing x t with
  | nil => exact h.2 ▸ start
  | cons i rest ih =>
    obtain ⟨first, others⟩ := List.forall_mem_cons.mp inspect
    obtain ⟨u, v, y, -, head, tail⟩ := h
    exact ih tail others (first.blameless head start)

end Interceptor

namespace InterceptorRegistry
variable {r : InterceptorRegistry} {x y : Exchange} {list : List Interceptor} {t : Trace} {body : Body}
  {f : Failure}

/-- Among the interceptors of the response that are to run, there is one that needs the content. -/
def NeedsContent (r : InterceptorRegistry) (x : Exchange) : Prop :=
  x.intercepted = false ∧ (r.applicable x.marked).any (·.requiresContent) = true

/-- A stream that is refused gives way to the failure, and no interceptor runs. -/
lemma Prepares.refused (h : r.Prepares x list t y) (streamed : x.response.body = .stream body)
    (needs : r.NeedsContent x) (refused : body.refusal? x.limits none = some f) :
    list = [] ∧ y.response.status = f.status ∧ y.response.body = .full f.description.bytes := by
  have outcome : (x.response.buffer x.limits).2 = _ := Response.buffer_of_stream streamed
  rw [refused] at outcome
  cases h with
  | again marked => exact absurd (marked.symm.trans needs.1) nofun
  | mark _ any => exact absurd (any.symm.trans needs.2) nofun
  | read _ _ readable => exact absurd ((Response.buffer_ok_iff.mpr readable).symm.trans outcome) nofun
  | lost _ _ why fails =>
    obtain rfl := Except.error.inj (why.symm.trans outcome)
    exact ⟨rfl, fails.status, fails.content⟩

/-- Otherwise the status is still the one of the answer. -/
lemma Prepares.status (h : r.Prepares x list t y) (streamed : x.response.body = .stream body)
    (whole : r.NeedsContent x → body.refusal? x.limits none = none) :
    y.response.status = x.response.status := by
  cases h with
  | again | mark => rfl
  | read => exact Response.status_buffer
  | lost first any why _ =>
    have outcome : (x.response.buffer x.limits).2 = _ := Response.buffer_of_stream streamed
    rw [whole ⟨first, any⟩] at outcome
    exact absurd (why.symm.trans outcome) nofun

end InterceptorRegistry

namespace Proxy
variable {p : Proxy} {lease : Lease} {request : OutgoingRequest} {status : Status} {sent : Headers}
  {body : Body} {x y : Exchange} {t u v : Trace} {r : Except Failure Flow}

/-- A backend that has answered lets the pipeline go on. -/
lemma runs_stage_answered (run : p.stage.handle.Runs x t r y) (told : t ++ v =
    ⟨.lease p.pool, .ok lease⟩ :: ⟨.send lease request, .answered status sent body⟩ :: u) :
    r = .ok .proceed ∧ y = p.relayed lease status sent body x := by
  obtain ⟨granted, w, rfl, outcome⟩ := runs_stage_cases run
  obtain ⟨first, later⟩ := List.cons.inj told
  cases first
  obtain ⟨uri, -, forwarded⟩ | ⟨f, -, rfl⟩ := outcome
  · obtain ⟨answer, q, rfl, outcome⟩ := runs_forward_cases forwarded
    obtain ⟨second, -⟩ := List.cons.inj later
    cases second
    exact ⟨outcome.1, outcome.2.1⟩
  · exact absurd (List.cons.inj later).1 nofun

end Proxy

namespace Assembly
variable {a : Assembly} {info : RouteInfo} {p : Proxy} {lease : Lease} {request : OutgoingRequest}
  {status : Status} {sent : Headers} {body : Body} {x m y z : Exchange} {t u v : Trace}

/-- When the backend has answered, the run comes to its end with the exchange that has the answer. -/
lemma finish_of_answered (handed : (a.proxy info p.stage).HandsLast x t m)
    (run : Job.Run ((a.proxy info p.stage).execute x)
      (t ++ ⟨.lease p.pool, .ok lease⟩ :: ⟨.send lease request, .answered status sent body⟩ :: u) z) :
    ∃ v handled, (∀ s ∈ handled, s ∈ (a.proxy info p.stage).stages) ∧
      ((a.proxy info p.stage).finish handled).Runs (p.relayed lease status sent body m) v () z := by
  obtain ⟨before, last, stages, way⟩ := handed
  obtain ⟨-, same⟩ := List.append_inj' stages rfl
  obtain rfl := List.singleton_inj.mp same
  obtain ⟨v, w, handled, n, told, ran, ending⟩ :=
    (Pipeline.run_execute_iff_of_passes stages way).mp run
  rw [Pipeline.runStages_cons, Job.run_bind_iff] at ran
  obtain ⟨v₁, v₂, ⟨r, y⟩, rfl, answered, rest⟩ := ran
  rw [List.append_assoc] at told
  obtain ⟨rfl, rfl⟩ := Proxy.runs_stage_answered answered told.symm
  obtain ⟨-, same⟩ := Job.run_done_iff.mp rest
  obtain ⟨rfl, rfl⟩ := Prod.mk.inj same
  refine ⟨w, _, fun s mem => ?_, ending⟩
  rw [stages, List.mem_append, List.mem_singleton]
  exact (List.mem_cons.mp mem).symm.imp_left List.mem_reverse.mp

/-- For an answer that is not an error, and interceptors of the response that only inspect it, the caller
gets the status of the backend or that of a fault of the server, unless one of the interceptors needs
the content and that is too large or breaks off. In that case alone, the answer is replaced by a failure
that is about the content of requests, and the caller is told so. -/
theorem status_of_answered (handed : (a.proxy info p.stage).HandsLast x t m)
    (run : Job.Run ((a.proxy info p.stage).execute x)
      (t ++ ⟨.lease p.pool, .ok lease⟩ :: ⟨.send lease request, .answered status sent body⟩ :: u) z)
    (success : status.code < 400) (inspect : ∀ i ∈ a.interceptors.atPoint .response, i.Inspects) :
    let n := p.relayed lease status sent body m
    ((z.response.status = status ∨ z.response.status.IsServerError) ↔
      (a.interceptors.NeedsContent n → body.refusal? m.limits none = none)) ∧
    ∀ f, a.interceptors.NeedsContent n → body.refusal? m.limits none = some f →
      z.response.status = f.status ∧ z.response.body = .full f.description.bytes := by
  intro n
  obtain ⟨v, handled, ran, ending⟩ := finish_of_answered handed run
  obtain ⟨list, t', y, u', k, prepared, all, left⟩ := interceptors_of_finish
    (b := .proxy info p.stage) Exchange.response_releaseContent (.pure (Rule.composes_keeping _) ()) ran ending
  have streamed : n.response.body = .stream (body.guarded (.lease p.pool lease.ticket)) := rfl
  have told : ∀ f, a.interceptors.NeedsContent n → body.refusal? m.limits none = some f →
      z.response.status = f.status ∧ z.response.body = .full f.description.bytes := by
    intro f needs refused
    obtain ⟨rfl, replaced⟩ := prepared.refused streamed needs refused
    obtain ⟨-, rfl⟩ := all
    rwa [left]
  refine ⟨⟨fun blameless needs => ?_, fun whole => ?_⟩, told⟩
  · -- A refusal of content is 413 or 400: no success, and no fault of the server.
    by_contra refused
    obtain ⟨f, refused⟩ := Option.ne_none_iff_exists'.mp refused
    rw [(told f needs refused).1] at blameless
    have code := Body.code_of_refusal? refused
    rcases blameless with same | ⟨low, -⟩
    · rw [same] at code
      omega
    · omega
  · have start : y.response.status = status := prepared.status streamed whole
    have inspect : ∀ i ∈ list, i.Inspects := by
      intro i hi
      rw [prepared.eq_due] at hi
      exact inspect i (InterceptorRegistry.mem_of_mem_due hi)
    have blameless : k.Blameless status := all.blameless inspect (.inl start)
    rwa [Exchange.Blameless, ← left] at blameless

/-- A backend can answer every request that comes to the proxy and makes an address there. -/
lemma exists_run_answered {before : List Stage} {uri : Uri}
    (stages : (a.proxy info p.stage).stages = before ++ [p.stage]) (way : Passes before x t m)
    (found : Proxy.target lease m = .ok uri) (status : Status) (sent : Headers) (body : Body) :
    ∃ u z, Job.Run ((a.proxy info p.stage).execute x) (t ++ ⟨.lease p.pool, .ok lease⟩ ::
      ⟨.send lease (p.outgoing lease uri m), .answered status sent body⟩ :: u) z := by
  let n := p.relayed lease status sent body m
  have answered := (Proxy.runs_stage_ok_iff (p := p)).mpr
    ⟨rfl, lease, uri, status, sent, body, found, rfl, rfl⟩
  have whole := Passes.append_iff.mpr ⟨t, _, m, rfl, way, Passes.singleton_iff.mpr answered⟩
  obtain ⟨q, _, z, ending⟩ := ((a.proxy info p.stage).finish (before ++ [p.stage]).reverse).exists_runs n
  rw [← List.append_nil (before ++ [p.stage])] at stages
  have run := (Pipeline.run_execute_iff_of_passes stages whole).mpr ⟨[], q, _, n, rfl, .done _, ending⟩
  rw [List.append_assoc] at run
  exact ⟨_, z, run⟩

end Assembly

/-- A gateway with an interceptor that looks at the content of all responses. -/
def inspecting (account : Account) : Assembly :=
  { openTo account id with
    interceptors := .ofPlugins
      [{ name := "inspect", behaviour := { requiresContent := true, handle := pure () } }] }

/-- Such a gateway relays the answer of a backend to a request without content. -/
lemma exists_run_inspecting (account : Account) (body : Body) :
    let pipeline := (inspecting account).proxy ⟨.proxy, "/", "api", true⟩
      (Proxy.stage { name := "api", pool := 0 })
    let x : Exchange := .ofRequest {} (.ofSizes 4 4)
    let lease : Lease := ⟨0, "b:80", "", false⟩
    ∃ m request u z, pipeline.HandsLast x [] m ∧ m.limits = x.limits ∧ m.intercepted = false ∧
      Job.Run (pipeline.execute x)
        ([] ++ ⟨.lease 0, .ok lease⟩ :: ⟨.send lease request, .answered .ok .empty body⟩ :: u) z := by
  intro pipeline x lease
  have way : ∃ m, Passes ((inspecting account).securedHead ⟨.proxy, "/", "api", true⟩ ++
      [Forwarding.credentialsStage, Forwarding.stage] ++
        (inspecting account).intercepted .afterAuth false) x [] m ∧
      m.uri = {} ∧ m.relativePath = "/" ∧ m.limits = x.limits ∧ m.intercepted = false := by
    iterate 14 refine Passes.exists_cons (.done _) ?_
    exact ⟨_, .nil _, rfl, rfl, rfl, rfl⟩
  obtain ⟨m, way, line, below, limits, first⟩ := way
  have found : Proxy.target lease m = .ok ⟨some "http", some "b:80", "/", none⟩ := by
    rw [Proxy.target, Proxy.targetText, line, below]
    decide
  obtain ⟨u, z, run⟩ := Assembly.exists_run_answered (p := { name := "api", pool := 0 }) rfl way found
    .ok .empty body
  exact ⟨m, _, u, z, (Pipeline.handsLast_iff rfl).mpr way, limits, first, run⟩

/-- A caller who sent no content is told that it was malformed, when the connection to the backend breaks
off, and that it was too large, when the answer of the backend is. -/
theorem status_of_answered_inspecting :
    let pipeline := (inspecting (.withRoles "ada" [])).proxy ⟨.proxy, "/", "api", true⟩
      (Proxy.stage { name := "api", pool := 0 })
    let x : Exchange := .ofRequest {} (.ofSizes 4 4)
    let lease : Lease := ⟨0, "b:80", "", false⟩
    let broken : Body := .stream [[112]] (some "connection reset")
    let long : Body := .stream [[112, 113, 114], [115, 116]]
    ∀ body f, (body, f) ∈ [(broken, Failure.malformedContent "connection reset"),
        (long, .contentTooLarge 4)] →
      ∃ request u z, Job.Run (pipeline.execute x)
          (⟨.lease 0, .ok lease⟩ :: ⟨.send lease request, .answered .ok .empty body⟩ :: u) z ∧
        z.response.status = f.status ∧ z.response.body = .full f.description.bytes ∧
        ¬(z.response.status = .ok ∨ z.response.status.IsServerError) := by
  intro pipeline x lease broken long body f mem
  have inspect : ∀ i ∈ (inspecting (.withRoles "ada" [])).interceptors.atPoint .response,
      i.Inspects := by
    intro i hi
    obtain rfl := List.mem_singleton.mp hi
    refine ⟨fun _ => .pure _, fun x t f y run => ?_⟩
    cases (Handler.runs_pure_iff.mp run).2.1
  have refused : body.refusal? x.limits none = some f := by
    rcases List.mem_pair.mp mem with same | same
    · obtain ⟨rfl, rfl⟩ := Prod.mk.inj same
      rfl
    · obtain ⟨rfl, rfl⟩ := Prod.mk.inj same
      rfl
  obtain ⟨m, request, u, z, handed, limits, first, run⟩ :=
    exists_run_inspecting (.withRoles "ada" []) body
  obtain ⟨blameless_iff, told⟩ :=
    Assembly.status_of_answered (p := { name := "api", pool := 0 }) handed run (by decide) inspect
  rw [limits] at blameless_iff told
  have needs : (inspecting (.withRoles "ada" [])).interceptors.NeedsContent
      (Proxy.relayed { name := "api", pool := 0 } lease .ok .empty body m) := ⟨first, rfl⟩
  obtain ⟨status, content⟩ := told f needs refused
  refine ⟨request, u, z, run, status, content, fun blameless => ?_⟩
  exact absurd (refused.symm.trans (blameless_iff.mp blameless needs)) nofun

end Gateway
