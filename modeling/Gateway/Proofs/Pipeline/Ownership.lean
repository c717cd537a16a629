import Gateway.Proofs.Job.Asking
import Gateway.Proofs.Job.Ownership
import Gateway.Proofs.Pipeline.Interception
import Gateway.Proofs.Pipeline.Stages
import Gateway.Route.Registry

/-! What the gateway's own stages hold. A connection that is leased for a request is given back on every
way through a pipeline, unless it lives on in the response. -/
namespace Gateway

/-- The stage holds what the response holds, whether it proceeds or not and also at the end. -/
structure Stage.Owns (s : Stage) : Prop where
  handle : s.handle.Owns
  complete : ExchangeJob.Owns s.complete

lemma Stage.Owns.of_handle {name : String} {handle : Handler Flow} (h : handle.Owns) :
    Stage.Owns { name, handle } := ⟨h, .pure ()⟩

def InterceptorRegistry.Owns (r : InterceptorRegistry) : Prop :=
  ∀ p ∈ r.plugins, p.behaviour.handle.Owns

structure SecurityChain.Owns (c : SecurityChain) : Prop where
  mechanisms : ∀ m ∈ c.mechanisms, ExchangeJob.Owns m.authenticate
  tokens : ∀ manager, c.tokens = some manager → ∀ account, (manager.issue account).Neutral

/-- Plugins hold nothing for themselves. -/
structure Assembly.Owns (a : Assembly) : Prop where
  security : a.security.Owns
  interceptors : a.interceptors.Owns

namespace Handler
variable {g : Headers → Headers}

lemma owns_changeHeaders : (changeHeaders g).Owns := .change fun _ => .inl rfl

lemma owns_changeResponseHeaders : (changeResponseHeaders g).Owns := .change fun _ => .inl rfl

lemma owns_readContent : readContent.Owns := by
  refine .attempt fun x => .inl ?_
  unfold Exchange.readContent
  split
  · split <;> rfl
  · rfl

lemma owns_rebuildQuery : rebuildQuery.Owns := by
  refine .attempt fun x => .inl ?_
  split
  · next y h =>
    rw [Exchange.rebuildQuery_eq h]
    rfl
  · rfl

lemma owns_bufferResponse : bufferResponse.Owns := by
  refine .attempt fun x => .inr ?_
  dsimp only [Exchange.guards, Response.buffer]
  split
  · split <;> rfl
  · rfl

end Handler

lemma Trace.guards_traced (names : List String) (x : Exchange) : (traced names x).guards = x.guards := by
  obtain ⟨values, text, headers, e⟩ := traced_eq names x
  rw [e]
  rfl

lemma InterceptorRegistry.Owns.atPoint {r : InterceptorRegistry} (h : r.Owns) {point : InterceptPoint} :
    ∀ i ∈ r.atPoint point, i.handle.Owns := by
  intro i hi
  obtain ⟨behaviour, -⟩ := List.mem_filter.mp hi
  obtain ⟨p, hp, rfl⟩ := List.mem_map.mp behaviour
  exact h p hp

namespace Stage

lemma owns_routeInfo (info : RouteInfo) : (routeInfo info).Owns :=
  .of_handle (.bind (.change fun _ => .inl rfl) fun _ => .pure _)

lemma owns_trace (names : List String) : (Trace.stage names).Owns :=
  .of_handle (.bind (.change fun x => .inl (Trace.guards_traced names x)) fun _ => .pure _)

lemma owns_requestLog (level : Nat) : (RequestLog.stage level).Owns where
  handle := .pure _
  complete := by
    refine .bind .get fun x => .bind (.lift (Job.neutral_emit _)) fun _ => ?_
    split
    · exact .lift (Job.neutral_emit _)
    · exact .pure ()

lemma owns_contentCloser : contentCloser.Owns where
  handle := .pure _
  complete := by
    refine .change fun x => .inl ?_
    unfold Exchange.releaseContent
    split <;> rfl

lemma owns_poweredBy : poweredBy.Owns :=
  .of_handle (.bind Handler.owns_changeResponseHeaders fun _ => .pure _)

lemma owns_contentReader (point : InterceptPoint) (r : InterceptorRegistry) (terminal : Bool) :
    (contentReader point r terminal).Owns := by
  refine .of_handle (.bind .view fun x => ?_)
  split
  · exact .bind Handler.owns_readContent fun _ => .pure _
  · exact .pure _

lemma owns_queryRebuilder : queryRebuilder.Owns :=
  .of_handle (.bind Handler.owns_rebuildQuery fun _ => .pure _)

lemma owns_runInterceptors {list : List Interceptor} (h : ∀ i ∈ list, i.handle.Owns) :
    (runInterceptors list).Owns := by
  induction list with
  | nil => exact .pure _
  | cons i rest ih =>
    have others := ih fun j hj => h j (List.mem_cons_of_mem _ hj)
    refine .bind .view fun x => ?_
    split
    · refine .bind (.tryCatch (h i List.mem_cons_self) fun f => ?_) fun _ => .bind .view fun y => ?_
      · exact .bind (.job (Job.neutral_emit _)) fun _ => .throw _
      · split
        · exact .pure _
        · exact others
    · exact others

lemma owns_interceptors (point : InterceptPoint) {r : InterceptorRegistry} (h : r.Owns) :
    (interceptors point r).Owns := by
  refine .of_handle (.bind .view fun x => ?_)
  split
  · exact .pure _
  · exact owns_runInterceptors h.atPoint

lemma owns_notManaged : notManaged.Owns := .of_handle (.bind .view fun _ => .throw _)

lemma owns_credentials : Forwarding.credentialsStage.Owns :=
  .of_handle (.bind Handler.owns_changeHeaders fun _ => .pure _)

lemma owns_forwarding : Forwarding.stage.Owns :=
  .of_handle (.bind (.change fun _ => .inl rfl) fun _ => .pure _)

lemma owns_service {s : Service} (h : s.handle.Owns) : s.stage.Owns :=
  .of_handle (.bind h fun _ => .pure _)

end Stage

namespace SecurityChain
variable {c : SecurityChain}

lemma owns_challenge {α : Type} (c : SecurityChain) : (c.challenge : Handler α).Owns :=
  .bind Handler.owns_changeResponseHeaders fun _ => .throw _

lemma owns_authenticate {list : List Mechanism} (h : ∀ m ∈ list, ExchangeJob.Owns m.authenticate) :
    (c.authenticate list).Owns := by
  induction list with
  | nil => exact .pure _
  | cons m rest ih =>
    refine .bind (.exchange (h m List.mem_cons_self)) fun outcome => ?_
    cases outcome with
    | notAttempted => exact ih fun m hm => h m (List.mem_cons_of_mem _ hm)
    | authenticated account => exact .change fun _ => .inl rfl
    | failed => exact c.owns_challenge

lemma owns_authorize (c : SecurityChain) : c.authorize.Owns := by
  refine .bind .view fun x => ?_
  split
  · split
    · exact c.owns_challenge
    · exact .throw _
  · exact .pure _

lemma owns_issueToken (h : c.Owns) : c.issueToken.Owns := by
  refine .bind .view fun x => ?_
  split
  · next manager account tokens _ =>
    refine .bind (.job (h.tokens manager tokens account)) fun outcome => ?_
    cases outcome with
    | ok token => exact Handler.owns_changeResponseHeaders
    | error reason => exact .job (Job.neutral_emit _)
  · exact .pure _

lemma owns_stage (h : c.Owns) : c.stage.Owns :=
  .of_handle (.bind (owns_authenticate h.mechanisms) fun _ => .bind c.owns_authorize fun _ =>
    .bind (owns_issueToken h) fun _ => .pure _)

end SecurityChain

namespace Site

lemma guards_serve (files : FileTree) (root : List String) (method : Method) (uri : Uri) :
    (Files.serve files root method uri).body.guards = [] := by
  have file (path : List String) : (Files.fileReply files method path).body.guards = [] := by
    unfold Files.fileReply
    split
    · rfl
    · dsimp only
      split <;> rfl
  unfold Files.serve
  split
  · rfl
  · split
    · rfl
    · dsimp only
      split
      · rfl
      · split
        · split
          · exact file _
          · rfl
        · split
          · rfl
          · exact file _

lemma owns_stage (s : Site) : s.stage.Owns := by
  refine .of_handle (.bind .view fun x => ?_)
  split
  · exact .throw _
  · exact .bind (.change fun _ => .inr (guards_serve ..)) fun _ => .pure _

end Site

namespace Proxy
variable {p : Proxy} {lease : Lease} {uri : Uri} {x : Exchange}

/-- The lease is given back unless the answer of the backend is streamed. Then it lives as long as the
response, in place of what that held before. -/
lemma owns_forward (once : x.guards.Nodup) (new : .lease p.pool lease.ticket ∉ x.guards) :
    ((p.forward lease uri).run x).Owns (fun q => q.2.guards)
      (.lease p.pool lease.ticket :: x.guards) := by
  have taken : Exchange.dropped x x.takeBody.1 = [] := Exchange.dropped_eq_nil rfl
  have back := Effect.mem_held_release new
  change ((Handler.change (fun _ => x.takeBody.1) >>= _ : Handler Flow).run x).Owns _ _
  rw [Handler.run_change_bind, taken]
  refine ⟨trivial, fun answer bare => ?_⟩
  cases answer with
  | unreachable =>
    exact ⟨trivial, fun _ _ => ⟨trivial, fun _ _ => ⟨List.mem_cons_self, fun _ _ => ⟨once, back⟩⟩⟩⟩
  | broken reason =>
    exact ⟨trivial, fun _ _ => ⟨List.mem_cons_self, fun _ _ => ⟨once, back⟩⟩⟩
  | answered status headers body =>
    refine ⟨trivial, fun _ _ => ?_⟩
    let response := adopt status headers (body.guarded (.lease p.pool lease.ticket)) x.response
    let z : Exchange := { x.takeBody.1 with response }
    have guards : z.guards = [.lease p.pool lease.ticket] := by
      change body.guards ++ [_] = _
      rw [show body.guards = [] from bare, List.nil_append]
    change ((Handler.changeResponse _ >>= fun _ => pure .proceed : Handler Flow).run
      x.takeBody.1).Owns _ _
    rw [Handler.changeResponse, Handler.run_change_bind]
    refine Exchange.owns_dropped (y := z) (Except.ok Flow.proceed) once (guards ▸ List.nodup_singleton _)
      fun g => ?_
    rw [guards, List.mem_singleton, or_comm]
    exact List.mem_cons

/-- On every way through the stage the lease is given back or lives on in the response. -/
lemma owns_stage (p : Proxy) : p.stage.Owns := by
  refine .of_handle fun x once => ?_
  change (Handler.run (Handler.perform (.lease p.pool) >>= _) x).Owns _ _
  rw [Handler.run_perform_bind]
  refine ⟨trivial, fun answer new => ?_⟩
  cases answer with
  | error f => exact ⟨once, fun _ => Iff.rfl⟩
  | ok lease =>
    dsimp only
    rw [Handler.run_view_bind]
    split
    · exact ⟨List.mem_cons_self, fun _ _ => ⟨once, Effect.mem_held_release new⟩⟩
    · exact owns_forward once new

end Proxy

namespace Pipeline
variable {p : Pipeline} {stages done handled : List Stage} {x : Exchange}

lemma owns_runStages (h : ∀ s ∈ stages, s.Owns) (once : x.guards.Nodup) :
    (runStages done stages x).Owns (fun q => q.2.guards) x.guards := by
  induction stages generalizing x done with
  | nil => exact Job.owns_done once fun _ => Iff.rfl
  | cons s rest ih =>
    rw [runStages_cons]
    refine ((h s List.mem_cons_self).handle x once).bind fun q after => ?_
    obtain ⟨outcome, y⟩ := q
    match outcome with
    | .ok .proceed => exact ih (fun s hs => h s (List.mem_cons_of_mem _ hs)) after
    | .ok .stop => exact Job.owns_done after fun _ => Iff.rfl
    | .error f =>
      refine (ExchangeJob.Owns.change (f := (·.fail f)) (fun _ => .inr rfl) y after).bind fun q kept => ?_
      exact Job.owns_done kept fun _ => Iff.rfl

lemma owns_runResponseInterceptor {i : Interceptor} (h : i.handle.Owns) :
    ExchangeJob.Owns (runResponseInterceptor i) := by
  refine .bind h fun outcome => ?_
  cases outcome with
  | ok _ => exact .pure ()
  | error f => exact .bind (.lift (Job.neutral_emit _)) fun _ => .change fun _ => .inr rfl

lemma owns_intercept {r : InterceptorRegistry} (h : r.Owns) : ExchangeJob.Owns (intercept r) := by
  have each (list : List Interceptor) (hl : ∀ i ∈ list, i.handle.Owns) :
      ExchangeJob.Owns (list.forM runResponseInterceptor) :=
    .forM fun i hi => owns_runResponseInterceptor (hl i hi)
  have applicable (x : Exchange) : ∀ i ∈ r.applicable x, i.handle.Owns :=
    fun i hi => h.atPoint i (List.mem_filter.mp hi).1
  rw [intercept_eq]
  refine .bind .get fun x => ?_
  split
  · exact .pure ()
  · refine .bind (.change fun _ => .inl rfl) fun _ => .bind .get fun y => ?_
    unfold meet
    split
    · refine .bind Handler.owns_bufferResponse fun outcome => ?_
      cases outcome with
      | ok _ => exact each _ (applicable y)
      | error f => exact .bind (.lift (Job.neutral_emit _)) fun _ => .change fun _ => .inr rfl
    · exact each _ (applicable y)

/-- A pipeline of such stages holds in the end what its response holds. -/
theorem owns_execute (stages : ∀ s ∈ p.stages, s.Owns)
    (interceptors : ∀ r, p.interceptors = some r → r.Owns) (once : x.guards.Nodup) :
    (p.execute x).Owns Exchange.guards x.guards := by
  rw [execute_eq]
  refine (owns_runStages stages once).bind_run fun t q run after => ?_
  obtain ⟨handled, y⟩ := q
  obtain ⟨ran, rfl, ends⟩ := ends_of_run run
  have finish : ExchangeJob.Owns (p.finish (ran.reverse ++ [])) := by
    refine .bind ?_ fun _ => .forM fun s hs => ?_
    · split
      · next r hr => exact owns_intercept (interceptors r hr)
      · exact .pure ()
    · rw [List.append_nil, List.mem_reverse] at hs
      exact (stages s (ends.isPrefix.subset hs)).complete
  exact (finish y after).bind fun w kept => Job.owns_done kept fun _ => Iff.rfl

end Pipeline

namespace Assembly
variable {a : Assembly} {info : RouteInfo} {terminal : Stage} {x : Exchange}

lemma owns_ofStages (h : a.Owns) {stages : List Stage} (hs : ∀ s ∈ stages, s.Owns)
    (once : x.guards.Nodup) : ((a.ofStages stages).execute x).Owns Exchange.guards x.guards := by
  refine Pipeline.owns_execute hs (fun r hr => ?_) once
  obtain rfl := Option.some.inj hr
  exact h.interceptors

lemma owns_intercepted (h : a.Owns) (point : InterceptPoint) (contentNeeded : Bool) :
    ∀ s ∈ a.intercepted point contentNeeded, s.Owns := by
  simp only [intercepted, List.forall_mem_cons]
  exact ⟨Stage.owns_contentReader .., Stage.owns_interceptors _ h.interceptors,
    Stage.owns_queryRebuilder, nofun⟩

lemma owns_securedHead (h : a.Owns) (info : RouteInfo) : ∀ s ∈ a.securedHead info, s.Owns := by
  simp only [securedHead, List.forall_mem_append, List.forall_mem_cons]
  exact ⟨⟨⟨Stage.owns_routeInfo info, Stage.owns_trace _, Stage.owns_requestLog _,
    Stage.owns_contentCloser, Stage.owns_poweredBy, nofun⟩, owns_intercepted h .beforeAuth false⟩,
    SecurityChain.owns_stage h.security, nofun⟩

lemma owns_service (h : a.Owns) (ht : terminal.Owns) (contentNeeded : Bool)
    (once : x.guards.Nodup) :
    ((a.service info terminal contentNeeded).execute x).Owns Exchange.guards x.guards := by
  refine owns_ofStages h ?_ once
  simp only [List.forall_mem_append, List.forall_mem_cons]
  exact ⟨⟨owns_securedHead h info, owns_intercepted h .afterAuth contentNeeded⟩, ht, nofun⟩

lemma owns_proxy (h : a.Owns) (ht : terminal.Owns) (once : x.guards.Nodup) :
    ((a.proxy info terminal).execute x).Owns Exchange.guards x.guards := by
  refine owns_ofStages h ?_ once
  simp only [List.forall_mem_append, List.forall_mem_cons]
  exact ⟨⟨⟨owns_securedHead h info, Stage.owns_credentials, Stage.owns_forwarding, nofun⟩,
    owns_intercepted h .afterAuth false⟩, ht, nofun⟩

lemma owns_static (h : a.Owns) (ht : terminal.Owns) (once : x.guards.Nodup) :
    ((a.static info terminal).execute x).Owns Exchange.guards x.guards := by
  refine owns_ofStages h ?_ once
  simp only [List.forall_mem_cons]
  exact ⟨Stage.owns_routeInfo info, Stage.owns_trace _, Stage.owns_requestLog _,
    Stage.owns_poweredBy, ht, nofun⟩

lemma owns_notManaged (h : a.Owns) (once : x.guards.Nodup) :
    (a.notManaged.execute x).Owns Exchange.guards x.guards := by
  refine owns_ofStages h ?_ once
  simp only [List.forall_mem_cons]
  exact ⟨Stage.owns_trace _, Stage.owns_requestLog _, Stage.owns_poweredBy, Stage.owns_notManaged,
    nofun⟩

end Assembly
end Gateway
