import Gateway.Pipeline.Assembly
import Gateway.Proofs.Pipeline.Rules

/-! The parts of a pipeline, whatever it is built for and whichever stage answers its requests. All that it
calls obeys a rule if what is plugged into it does. -/
namespace Gateway

/-- A part of a pipeline: a single stage, or the request interceptors of a point. -/
inductive Part where
  | single (s : Stage)
  | interceptors (point : InterceptPoint)

/-- The stage in which the part is run. -/
def Part.stage (r : InterceptorRegistry) : Part → Stage
  | single s => s
  | interceptors point => Stage.interceptors point r

/-- What a pipeline is built for: a route with the stage that answers its requests, or the paths that
no route covers. -/
inductive Blueprint where
  | service (info : RouteInfo) (terminal : Stage) (content : Bool)
  | proxy (info : RouteInfo) (terminal : Stage)
  | static (info : RouteInfo) (terminal : Stage)
  | notManaged

def Assembly.build (a : Assembly) : Blueprint → Pipeline
  | .service info terminal content => a.service info terminal content
  | .proxy info terminal => a.proxy info terminal
  | .static info terminal => a.static info terminal
  | .notManaged => a.notManaged

/-- The parts around the request interceptors of a point. -/
def Assembly.around (a : Assembly) (point : InterceptPoint) (content : Bool) : List Part :=
  [.single (Stage.contentReader point a.interceptors content), .interceptors point,
    .single Stage.queryRebuilder]

namespace Blueprint

def info? : Blueprint → Option RouteInfo
  | service info _ _ | proxy info _ | static info _ => some info
  | notManaged => none

/-- The stage that answers requests. -/
def terminal : Blueprint → Stage
  | service _ terminal _ | proxy _ terminal | static _ terminal => terminal
  | notManaged => Stage.notManaged

/-- Whether requests go through security and meet interceptors on their way. -/
def isGuarded : Blueprint → Bool
  | service .. | proxy .. => true
  | static .. | notManaged => false

/-- The stages before the request log. -/
def front (a : Assembly) (b : Blueprint) : List Stage := b.info?.toList.map Stage.routeInfo ++ [a.trace]

/-- The parts between the request log and the stage that answers. -/
def inner (a : Assembly) : Blueprint → List Part
  | service _ _ content =>
    [.single Stage.contentCloser, .single Stage.poweredBy] ++ a.around .beforeAuth false ++
      [.single a.security.stage] ++ a.around .afterAuth content
  | proxy .. =>
    [.single Stage.contentCloser, .single Stage.poweredBy] ++ a.around .beforeAuth false ++
      [.single a.security.stage, .single Forwarding.credentialsStage, .single Forwarding.stage] ++
        a.around .afterAuth false
  | static .. | notManaged => [.single Stage.poweredBy]

/-- The parts before the stage that answers. -/
def upstream (a : Assembly) (b : Blueprint) : List Part :=
  (b.front a).map .single ++ .single a.requestLog :: b.inner a

def parts (a : Assembly) (b : Blueprint) : List Part := b.upstream a ++ [.single b.terminal]

end Blueprint

namespace Assembly
variable {a : Assembly} {b : Blueprint} {R S : Rule}

lemma build_interceptors : (a.build b).interceptors = some a.interceptors := by
  cases b <;> rfl

theorem build_stages : (a.build b).stages = (b.parts a).map (Part.stage a.interceptors) := by
  cases b <;> rfl

lemma forall_front {P : Stage → Prop} (route : ∀ info, b.info? = some info → P (Stage.routeInfo info))
    (trace : P a.trace) : ∀ s ∈ b.front a, P s := by
  simp only [Blueprint.front, List.forall_mem_append, List.forall_mem_map, Option.mem_toList,
    List.forall_mem_singleton]
  exact ⟨route, trace⟩

/-- What holds of the gateway's own stages and of interceptors holds between log and answer. -/
theorem forall_inner {P : Part → Prop} (closer : P (.single Stage.contentCloser))
    (poweredBy : P (.single Stage.poweredBy))
    (reader : ∀ point content, P (.single (Stage.contentReader point a.interceptors content)))
    (interceptors : ∀ point, P (.interceptors point)) (rebuilder : P (.single Stage.queryRebuilder))
    (security : P (.single a.security.stage)) (credentials : P (.single Forwarding.credentialsStage))
    (forwarding : P (.single Forwarding.stage)) : ∀ part ∈ b.inner a, P part := by
  have around (point : InterceptPoint) (content : Bool) : ∀ part ∈ a.around point content, P part := by
    simp only [Assembly.around, List.forall_mem_cons]
    exact ⟨reader point content, interceptors point, rebuilder, nofun⟩
  cases b with
  | service info terminal content =>
    simp only [Blueprint.inner, List.forall_mem_append, List.forall_mem_cons]
    exact ⟨⟨⟨⟨closer, poweredBy, nofun⟩, around _ _⟩, security, nofun⟩, around _ _⟩
  | proxy info terminal =>
    simp only [Blueprint.inner, List.forall_mem_append, List.forall_mem_cons]
    exact ⟨⟨⟨⟨closer, poweredBy, nofun⟩, around _ _⟩, security, credentials, forwarding, nofun⟩,
      around _ _⟩
  | static info terminal | notManaged =>
    simp only [Blueprint.inner, List.forall_mem_cons]
    exact ⟨poweredBy, nofun⟩

/-- The stages before the answer carry a property that says nothing about the route and the headers, if the
others among them do. -/
lemma carries_upstream {P : Exchange → Prop} (attach : ∀ info x, P x → P { x with info := some info })
    (headers : ∀ x h, P x → P { x with headers := h }) (trace : a.trace.Carries P)
    (poweredBy : Stage.poweredBy.Carries P)
    (reader : ∀ point content, (Stage.contentReader point a.interceptors content).Carries P)
    (interceptors : ∀ point, (Stage.interceptors point a.interceptors).Carries P)
    (rebuilder : Stage.queryRebuilder.Carries P) (security : a.security.stage.Carries P) :
    ∀ part ∈ b.upstream a, (part.stage a.interceptors).Carries P := by
  simp only [Blueprint.upstream, List.forall_mem_append, List.forall_mem_map, List.forall_mem_cons]
  exact ⟨forall_front (fun info _ => Stage.carries_change (attach info)) trace, Stage.carries_proceed,
    forall_inner Stage.carries_proceed poweredBy reader interceptors rebuilder security
      (Stage.carries_change fun x => headers x _) (Stage.carries_change fun x => headers x _)⟩

/-- What is plugged into the gateway for the pipeline obeys the rule. -/
structure Obeys (R : Rule) (a : Assembly) (b : Blueprint) : Prop where
  interceptors : ∀ point, ∀ i ∈ a.interceptors.atPoint point, i.handle.Obeys R
  security : a.security.Obeys R
  terminal : b.terminal.Obeys R

lemma Obeys.mono (h : a.Obeys R b) (hS : ∀ {x t y}, R x t y → S x t y) : a.Obeys S b where
  interceptors point i hi := (h.interceptors point i hi).mono hS
  security :=
    ⟨fun m hm => (h.security.mechanisms m hm).mono hS,
      fun manager some account x t r run => hS (h.security.tokens manager some account x t r run)⟩
  terminal := ⟨h.terminal.handle.mono hS, h.terminal.complete.mono hS⟩

lemma obeys_front (hR : R.Admits)
    (attach : ∀ info, b.info? = some info → ∀ x : Exchange, R x [] { x with info := some info }) :
    ∀ s ∈ b.front a, s.Obeys R :=
  forall_front (fun info route => Stage.obeys_routeInfo hR.toComposes (attach info route))
    (Stage.obeys_trace hR _)

lemma obeys_inner (hR : R.Admits) (h : a.Obeys R b) :
    ∀ part ∈ b.inner a, (part.stage a.interceptors).Obeys R :=
  forall_inner (Stage.obeys_contentCloser hR) (Stage.obeys_poweredBy hR) (Stage.obeys_contentReader hR · _ ·)
    (fun point => Stage.obeys_interceptors hR (h.interceptors point)) (Stage.obeys_queryRebuilder hR)
    (SecurityChain.obeys_stage hR h.security) (Stage.obeys_credentials hR) (Stage.obeys_forwarding hR)

end Assembly

lemma InterceptorRegistry.obeys_ofPlugins {R : Rule} {plugins : List (Plugin Interceptor)}
    (h : ∀ p ∈ plugins, p.behaviour.handle.Obeys R) (point : InterceptPoint) :
    ∀ i ∈ (ofPlugins plugins).atPoint point, i.handle.Obeys R := by
  intro i hi
  obtain ⟨behaviour, -⟩ := List.mem_filter.mp hi
  obtain ⟨p, hp, rfl⟩ := List.mem_map.mp behaviour
  exact h p (List.mem_filter.mp hp).1

/-- However the call is answered, it obeys the rule. -/
def Call.Obeys (R : Rule) (c : Call) : Prop := ∀ ⦃x t y⦄, c.Runs x t y → R x t y

namespace Call
variable {R : Rule} {s : Stage} {r : InterceptorRegistry}

lemma RunAll.obeys (hR : R.Composes) {calls : List Call} (h : ∀ c ∈ calls, c.Obeys R) {x y : Exchange}
    {t : Trace} (run : RunAll calls x t y) : R x t y := by
  induction calls generalizing x t with
  | nil =>
    obtain ⟨rfl, rfl⟩ := run
    exact hR.nothing _
  | cons c rest ih =>
    obtain ⟨u, v, m, rfl, head, tail⟩ := run
    exact hR.followed (h c List.mem_cons_self head) (ih (fun c hc => h c (List.mem_cons_of_mem _ hc)) tail)

lemma obeys_handle (hR : R.Composes) (fails : R.Fails) (h : s.handle.Obeys R)
    (outcome : Except Failure Flow) : (handle s outcome).Obeys R := by
  intro x t z run
  cases outcome with
  | ok flow => exact h.runs run
  | error f =>
    obtain ⟨u, y, rfl, run, failed⟩ := run
    obtain rfl := Exchange.fails_iff.mp failed
    exact hR.followed (h.runs run) (fails y f)

lemma obeys_complete (h : s.complete.Obeys R) : (complete s).Obeys R := fun _ _ _ run => h run

end Call

namespace Pipeline
variable {R : Rule} {list : List Interceptor} {r : InterceptorRegistry}

/-- An alert, and a failure as the response. -/
lemma obeys_failure (hR : R.Admits) (fails : R.Fails) {event : Event} (alert : event.isEntry = false)
    (f : Failure) :
    ExchangeJob.Obeys R (do liftM (Job.emit event); Exchange.change (·.fail f)) :=
  .bind hR.toComposes (.lift (Job.obeys_emit hR alert)) fun _ => .change fun x => fails x f

lemma obeys_runResponseInterceptor (hR : R.Admits) (fails : R.Fails) {i : Interceptor}
    (h : i.handle.Obeys R) : ExchangeJob.Obeys R (runResponseInterceptor i) := by
  refine .bind hR.toComposes h fun outcome => ?_
  cases outcome with
  | ok _ => exact .pure hR.toComposes ()
  | error f => exact obeys_failure hR fails rfl f

lemma obeys_forM (hR : R.Admits) (fails : R.Fails) (h : ∀ i ∈ list, i.handle.Obeys R) :
    ExchangeJob.Obeys R (list.forM runResponseInterceptor) :=
  .forM hR.toComposes fun i hi => obeys_runResponseInterceptor hR fails (h i hi)

lemma obeys_meet (hR : R.Admits) (fails : R.Fails) (h : ∀ i ∈ list, i.handle.Obeys R) :
    ExchangeJob.Obeys R (meet list) := by
  unfold meet
  split
  · refine .bind hR.toComposes (Handler.Obeys.bufferResponse hR) fun outcome => ?_
    cases outcome with
    | ok _ => exact obeys_forM hR fails h
    | error f => exact obeys_failure hR fails rfl f
  · exact obeys_forM hR fails h

lemma obeys_intercept (hR : R.Admits) (fails : R.Fails) (mark : ∀ x : Exchange, R x [] x.marked)
    (h : ∀ i ∈ r.atPoint .response, i.handle.Obeys R) : (Call.intercept r).Obeys R := by
  intro x t y run
  change ite _ _ _ at run
  split at run
  · obtain ⟨rfl, rfl⟩ := run
    exact hR.nothing _
  · have applicable : ∀ i ∈ r.applicable x.marked, i.handle.Obeys R :=
      fun i hi => h i (List.mem_filter.mp hi).1
    exact hR.followed (mark x) (obeys_meet hR fails applicable run)

lemma obeys_handles (hR : R.Composes) (fails : R.Fails) {stages : List Stage}
    (h : ∀ s ∈ stages, s.handle.Obeys R) (outcomes : List (Except Failure Flow)) :
    ∀ c ∈ List.zipWith Call.handle stages outcomes, c.Obeys R := by
  intro c hc
  rw [← List.map_uncurry_zip_eq_zipWith] at hc
  obtain ⟨⟨s, o⟩, mem, rfl⟩ := List.mem_map.mp hc
  exact Call.obeys_handle hR fails (h s (List.of_mem_zip mem).1) o

lemma obeys_runStages (hR : R.Composes) (fails : R.Fails) {stages done handled : List Stage}
    {x y : Exchange} {t : Trace} (h : ∀ s ∈ stages, s.handle.Obeys R)
    (run : Job.Run (runStages done stages x) t (handled, y)) : R x t y := by
  obtain ⟨outcomes, -, -, calls⟩ := run_runStages_iff.mp run
  exact calls.obeys hR (obeys_handles hR fails h outcomes)

/-- Everything that is called obeys a rule that the stages and the interceptors of the response obey. -/
theorem obeys_calls (hR : R.Admits) (fails : R.Fails) (mark : ∀ x : Exchange, R x [] x.marked)
    {p : Pipeline} (stages : ∀ s ∈ p.stages, s.Obeys R)
    (interceptors : ∀ r, p.interceptors = some r → ∀ i ∈ r.atPoint .response, i.handle.Obeys R)
    (outcomes : List (Except Failure Flow)) : ∀ c ∈ p.calls outcomes, c.Obeys R := by
  intro c hc
  simp only [calls, List.mem_append, List.mem_map, Option.mem_toList, List.mem_reverse] at hc
  rcases hc with hc | ⟨r, hr, rfl⟩ | ⟨s, hs, rfl⟩
  · exact obeys_handles hR.toComposes fails (fun s hs => (stages s hs).handle) outcomes c hc
  · exact obeys_intercept hR fails mark (interceptors r hr)
  · exact Call.obeys_complete (stages s (List.mem_of_mem_take hs)).complete

lemma obeys_execute (hR : R.Composes) {p : Pipeline} (h : ∀ outcomes, ∀ c ∈ p.calls outcomes, c.Obeys R)
    {x z : Exchange} {t : Trace} (run : Job.Run (p.execute x) t z) : R x t z := by
  obtain ⟨u, v, handled, y, rfl, ran, rest⟩ := run_execute_iff.mp run
  obtain ⟨outcomes, -, rfl, calls⟩ := run_runStages_iff.mp ran
  rw [List.append_nil, runs_finish_iff] at rest
  exact (Call.runAll_append_iff.mpr ⟨u, v, y, rfl, calls, rest⟩).obeys hR (h outcomes)

end Pipeline

namespace Assembly
variable {a : Assembly} {b : Blueprint} {R : Rule}

/-- Every stage obeys the rule when it is called. -/
theorem obeys_handles (hR : R.Admits)
    (attach : ∀ info, b.info? = some info → ∀ x : Exchange, R x [] { x with info := some info })
    (h : a.Obeys R b) : ∀ s ∈ (a.build b).stages, s.handle.Obeys R := by
  simp only [build_stages, Blueprint.parts, Blueprint.upstream, List.forall_mem_map,
    List.forall_mem_append, List.forall_mem_cons]
  exact ⟨⟨fun s hs => (obeys_front hR attach s hs).handle, Handler.Obeys.pure hR.toComposes _,
    fun part hp => (obeys_inner hR h part hp).handle⟩, h.terminal.handle, nofun⟩

/-- A rule that has nothing against effects is obeyed by the request log as well. -/
theorem obeys_stages (hR : R.Admits) (free : ∀ x (e : Effect) (r : e.Answer), R x [⟨e, r⟩] x)
    (attach : ∀ info, b.info? = some info → ∀ x : Exchange, R x [] { x with info := some info })
    (h : a.Obeys R b) : ∀ s ∈ (a.build b).stages, s.Obeys R := by
  have log : a.requestLog.Obeys R := Stage.obeys_requestLog hR.toComposes _ free
  simp only [build_stages, Blueprint.parts, Blueprint.upstream, List.forall_mem_map,
    List.forall_mem_append, List.forall_mem_cons]
  exact ⟨⟨obeys_front hR attach, log, obeys_inner hR h⟩, h.terminal, nofun⟩

/-- Then so does everything that is called, up to the last stage that is told of the end. -/
theorem obeys_calls (hR : R.Admits) (fails : R.Fails) (mark : ∀ x : Exchange, R x [] x.marked)
    (free : ∀ x (e : Effect) (r : e.Answer), R x [⟨e, r⟩] x)
    (attach : ∀ info, b.info? = some info → ∀ x : Exchange, R x [] { x with info := some info })
    (h : a.Obeys R b) (outcomes : List (Except Failure Flow)) :
    ∀ c ∈ (a.build b).calls outcomes, c.Obeys R := by
  refine Pipeline.obeys_calls hR fails mark (obeys_stages hR free attach h) (fun r hr => ?_) outcomes
  obtain rfl := Option.some.inj (build_interceptors.symm.trans hr)
  exact h.interceptors .response

end Assembly
end Gateway
