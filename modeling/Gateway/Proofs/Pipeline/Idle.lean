import Gateway.Pipeline.Assembly
import Gateway.Plugin.Service
import Gateway.Proofs.Pipeline.Interception
import Gateway.Proxy.Stage
import Gateway.Site.Stage

/-! Gateways with an idle interceptor more. Their pipelines have the same stages, and a reply is the same
unless its content was in memory when the interceptors ran. -/
namespace Gateway

namespace InterceptorRegistry
variable {before after : List (Plugin Interceptor)} {n : Plugin Interceptor} {x : Exchange}
  {point : InterceptPoint}

lemma atPoint_append : (ofPlugins (before ++ after)).atPoint point =
    (ofPlugins before).atPoint point ++ (ofPlugins after).atPoint point := by
  simp only [ofPlugins, atPoint, List.filter_append, List.map_append]

lemma atPoint_cons (on : n.enabled = true) : (ofPlugins (n :: after)).atPoint point =
    (if n.behaviour.point = point then [n.behaviour] else []) ++
      (ofPlugins after).atPoint point := by
  simp only [ofPlugins, atPoint, List.filter_cons_of_pos on, List.map_cons, List.filter_cons,
    decide_eq_true_eq]
  split <;> rfl

lemma atPoint_insert (on : n.enabled = true) (response : n.behaviour.point = .response)
    (other : point ≠ .response) :
    (ofPlugins (before ++ n :: after)).atPoint point = (ofPlugins (before ++ after)).atPoint point := by
  have elsewhere : ¬n.behaviour.point = point := by
    rw [response]
    exact other.symm
  rw [atPoint_append, atPoint_append, atPoint_cons on, if_neg elsewhere, List.nil_append]

lemma applicable_append : (ofPlugins (before ++ after)).applicable x =
    (ofPlugins before).applicable x ++ (ofPlugins after).applicable x := by
  rw [applicable, atPoint_append, List.filter_append]
  rfl

lemma applicable_insert_of (on : n.enabled = true) (response : n.behaviour.point = .response)
    (applies : n.behaviour.resolves x = true) : (ofPlugins (before ++ n :: after)).applicable x =
      (ofPlugins before).applicable x ++ n.behaviour :: (ofPlugins after).applicable x := by
  rw [applicable_append]
  congr 1
  rw [applicable, atPoint_cons on, if_pos response, List.singleton_append, List.filter_cons,
    if_pos applies]
  rfl

lemma applicable_insert_of_not (on : n.enabled = true) (response : n.behaviour.point = .response)
    (applies : n.behaviour.resolves x = false) : (ofPlugins (before ++ n :: after)).applicable x =
      (ofPlugins (before ++ after)).applicable x := by
  rw [applicable_append, applicable_append]
  congr 1
  rw [applicable, atPoint_cons on, if_pos response, List.singleton_append, List.filter_cons,
    if_neg (by rw [applies]; nofun)]
  rfl

end InterceptorRegistry

namespace Pipeline
variable {before after : List (Plugin Interceptor)} {n : Plugin Interceptor} {r : InterceptorRegistry}
  {i : Interceptor} {x y : Exchange} {t : Trace}
open InterceptorRegistry

/-- An interceptor that only has the response read is not seen: it does not run, or reading makes no
difference to the others. -/
def Unseen (i : Interceptor) (r : InterceptorRegistry) (x : Exchange) : Prop :=
  x.intercepted = true ∨ i.resolves x.marked = false ∨ ReadsAlike (r.applicable x.marked) x.marked

theorem intercept_followedBy (on : n.enabled = true) (idle : n.behaviour.Idle)
    (same : Unseen n.behaviour (ofPlugins (before ++ after)) x) :
    ExchangeJob.FollowedBy (intercept (ofPlugins (before ++ after)))
        (intercept (ofPlugins (before ++ n :: after))) x ∧
      ExchangeJob.FollowedBy (intercept (ofPlugins (before ++ n :: after)))
        (intercept (ofPlugins (before ++ after))) x := by
  by_cases done : x.intercepted = true
  · have e : (intercept (ofPlugins (before ++ after))).run x =
        (intercept (ofPlugins (before ++ n :: after))).run x := by
      rw [run_intercept, run_intercept, if_pos done, if_pos done]
    exact ⟨.of_eq e, .of_eq e.symm⟩
  · have runs (r : InterceptorRegistry) :
        (intercept r).run x = (meet (r.applicable x.marked)).run x.marked := by
      rw [run_intercept, if_neg done]
    unfold ExchangeJob.FollowedBy ExchangeJob.Runs
    rw [runs, runs]
    cases applies : n.behaviour.resolves x.marked with
    | false =>
      rw [applicable_insert_of_not on idle.point applies]
      exact ⟨ExchangeJob.FollowedBy.of_eq rfl, ExchangeJob.FollowedBy.of_eq rfl⟩
    | true =>
      have reads := (same.resolve_left done).resolve_left (by rw [applies]; nofun)
      rw [applicable_append] at reads
      rw [applicable_insert_of on idle.point applies, applicable_append]
      exact meet_followedBy idle reads

lemma response_of_none (open_ : x.intercepted = false) (none : r.applicable x.marked = [])
    (h : (intercept r).Runs x t () y) : y.response = x.response := by
  unfold ExchangeJob.Runs at h
  rw [run_intercept, if_neg (by rw [open_]; nofun), none] at h
  obtain ⟨-, -, rfl⟩ := ExchangeJob.runs_pure_iff.mp h
  rfl

lemma response_of_idle (open_ : x.intercepted = false) (idle : i.Idle)
    (only : r.applicable x.marked = [i]) (fits : x.response.body.Fits x.limits)
    (h : (intercept r).Runs x t () y) : y.response = (x.response.buffer x.limits).1 := by
  unfold ExchangeJob.Runs at h
  rw [run_intercept, if_neg (by rw [open_]; nofun), only, ← List.nil_append [i],
    meet_insert_idle idle] at h
  have fits : x.marked.response.body.Fits x.marked.limits := fits
  obtain ⟨v, -, hv⟩ := (runs_afterBuffering_iff fits).mp h
  obtain ⟨-, -, rfl⟩ := ExchangeJob.runs_pure_iff.mp hv
  rfl

lemma finish_eq {p : Pipeline} {handled : List Stage} (h : p.interceptors = some r) :
    p.finish handled = intercept r >>= fun _ => handled.forM (·.complete) := by
  rw [finish, h]

/-- Both pipelines bring what the stages left to the same replies: whatever one of them can be told on
the way, the other can be told as well, and then their replies are the same. -/
def SameReplies (p q : Pipeline) (handled : List Stage) (x : Exchange) : Prop :=
  ExchangeJob.FollowedBy (p.finish handled) (q.finish handled) x ∧
    ExchangeJob.FollowedBy (q.finish handled) (p.finish handled) x

/-- For every run of the first pipeline on a request there is one of the second that is told the same
and gives the client the same reply. -/
def AnsweredBy (p q : Pipeline) (x : Exchange) : Prop :=
  ∀ (t : Trace) y, Job.Run (p.execute x) t y →
    ∃ (u : Trace) (z : Exchange), Job.Run (q.execute x) u z ∧ u.told = t.told ∧ y.SameReply z

lemma answeredBy_of_followedBy {p q : Pipeline} (stages : q.stages = p.stages)
    (same : ∀ u handled y, Job.Run (runStages [] p.stages x) u (handled, y) →
      ExchangeJob.FollowedBy (p.finish handled) (q.finish handled) y) : p.AnsweredBy q x := by
  intro t z h
  obtain ⟨u, v, handled, y, rfl, hu, hv⟩ := run_execute_iff.mp h
  obtain ⟨w, z', hw, told, reply⟩ := same u handled y hu v z hv
  rw [← stages] at hu
  refine ⟨u ++ w, z', run_execute_iff.mpr ⟨u, w, handled, y, rfl, hu, hw⟩, ?_, reply⟩
  rw [Trace.told_append, Trace.told_append, told]

end Pipeline

/-- What a pipeline is put together for. -/
inductive Plan where
  | service (info : RouteInfo) (s : Service)
  | proxy (info : RouteInfo) (p : Proxy)
  | static (info : RouteInfo) (s : Site)
  | notManaged

namespace Assembly
variable {a : Assembly} {r : InterceptorRegistry} {plan : Plan} {before after : List (Plugin Interceptor)}
  {n : Plugin Interceptor} {u : Trace} {x y : Exchange} {handled : List Stage}

def assemble (a : Assembly) : Plan → Pipeline
  | .service info s => a.service info s.stage s.requiresContent
  | .proxy info p => a.proxy info p.stage
  | .static info s => a.static info s.stage
  | .notManaged => a.notManaged

lemma assemble_interceptors : (a.assemble plan).interceptors = some a.interceptors := by
  cases plan <;> rfl

lemma intercepted_congr {point : InterceptPoint} {content : Bool}
    (h : r.atPoint point = a.interceptors.atPoint point) :
    intercepted { a with interceptors := r } point content = a.intercepted point content := by
  simp only [intercepted, Stage.contentReader, Stage.interceptors, Stage.needsContent,
    InterceptorRegistry.requiresContent, h]
  rfl

/-- The stages do not depend on the interceptors of the response. -/
theorem assemble_stages_congr
    (h : ∀ point ≠ .response, r.atPoint point = a.interceptors.atPoint point) :
    (assemble { a with interceptors := r } plan).stages = (a.assemble plan).stages := by
  have before : intercepted { a with interceptors := r } .beforeAuth false =
      a.intercepted .beforeAuth false := intercepted_congr (h .beforeAuth nofun)
  have head (info : RouteInfo) :
      securedHead { a with interceptors := r } info = a.securedHead info := by
    unfold securedHead
    rw [before]
    rfl
  cases plan with
  | service info s =>
    unfold assemble service ofStages
    dsimp only
    rw [head, intercepted_congr (h .afterAuth nofun)]
  | proxy info p =>
    unfold assemble proxy ofStages
    dsimp only
    rw [head, intercepted_congr (h .afterAuth nofun)]
  | static info s => rfl
  | notManaged => rfl

lemma requestLog_quiet : a.requestLog.complete.Quiet := by
  refine .bind .get fun x => .bind (.emit _) fun _ => ?_
  split
  · exact .emit _
  · exact .pure ()

lemma contentCloser_quiet : Stage.contentCloser.complete.Quiet := by
  refine .change fun x => ?_
  unfold Exchange.releaseContent
  split <;> rfl

/-- What is done when the stages are over leaves the response. -/
theorem complete_quiet : ∀ s ∈ (a.assemble plan).stages, s.complete.Quiet := by
  have intercepted (point : InterceptPoint) (content : Bool) :
      ∀ s ∈ a.intercepted point content, s.complete.Quiet := by
    simp only [Assembly.intercepted, List.forall_mem_cons]
    exact ⟨.pure (), .pure (), .pure (), nofun⟩
  have head (info : RouteInfo) : ∀ s ∈ a.securedHead info, s.complete.Quiet := by
    simp only [securedHead, List.forall_mem_append, List.forall_mem_cons]
    exact ⟨⟨⟨.pure (), .pure (), requestLog_quiet, contentCloser_quiet, .pure (), nofun⟩,
      intercepted _ _⟩, .pure (), nofun⟩
  cases plan with
  | service info s =>
    simp only [assemble, service, ofStages, List.forall_mem_append, List.forall_mem_cons]
    exact ⟨⟨head info, intercepted _ _⟩, .pure (), nofun⟩
  | proxy info p =>
    simp only [assemble, proxy, ofStages, List.forall_mem_append, List.forall_mem_cons]
    exact ⟨⟨⟨head info, .pure (), .pure (), nofun⟩, intercepted _ _⟩, .pure (), nofun⟩
  | static info s =>
    simp only [assemble, static, ofStages, List.forall_mem_cons]
    exact ⟨.pure (), .pure (), requestLog_quiet, .pure (), .pure (), nofun⟩
  | notManaged =>
    simp only [assemble, notManaged, ofStages, List.forall_mem_cons]
    exact ⟨.pure (), requestLog_quiet, .pure (), .pure (), nofun⟩

/-- The gateway with other interceptors. -/
def withInterceptors (a : Assembly) (plugins : List (Plugin Interceptor)) : Assembly :=
  { a with interceptors := .ofPlugins plugins }

lemma assemble_finish {plugins : List (Plugin Interceptor)} :
    ((a.withInterceptors plugins).assemble plan).finish handled =
      Pipeline.intercept (.ofPlugins plugins) >>= fun _ => handled.forM (·.complete) :=
  Pipeline.finish_eq assemble_interceptors

lemma stages_insert_idle (on : n.enabled = true) (idle : n.behaviour.Idle) :
    ((a.withInterceptors (before ++ n :: after)).assemble plan).stages =
      ((a.withInterceptors (before ++ after)).assemble plan).stages :=
  assemble_stages_congr (a := a.withInterceptors (before ++ after)) fun _ other =>
    InterceptorRegistry.atPoint_insert on idle.point other

theorem sameReplies_of_unseen (on : n.enabled = true) (idle : n.behaviour.Idle)
    (quiet : (handled.forM fun s : Stage => s.complete).Quiet)
    (same : Pipeline.Unseen n.behaviour (.ofPlugins (before ++ after)) y) :
    ((a.withInterceptors (before ++ after)).assemble plan).SameReplies
      ((a.withInterceptors (before ++ n :: after)).assemble plan) handled y := by
  rw [Pipeline.SameReplies, assemble_finish, assemble_finish]
  obtain ⟨there, back⟩ := Pipeline.intercept_followedBy on idle same
  exact ⟨there.bind_quiet quiet, back.bind_quiet quiet⟩

/-- Where no other interceptor applies, only content that is in memory already is missed in the reply. -/
theorem not_isFull_of_sameReplies (on : n.enabled = true) (idle : n.behaviour.Idle)
    (quiet : (handled.forM fun s : Stage => s.complete).Quiet) (open_ : y.intercepted = false)
    (applies : n.behaviour.resolves y.marked = true)
    (none : (InterceptorRegistry.ofPlugins (before ++ after)).applicable y.marked = [])
    (fits : y.response.body.Fits y.limits)
    (same : ((a.withInterceptors (before ++ after)).assemble plan).SameReplies
      ((a.withInterceptors (before ++ n :: after)).assemble plan) handled y) :
    ¬y.response.body.IsFull := by
  have only : (InterceptorRegistry.ofPlugins (before ++ n :: after)).applicable y.marked =
      [n.behaviour] := by
    rw [InterceptorRegistry.applicable_append, List.append_eq_nil_iff] at none
    rw [InterceptorRegistry.applicable_insert_of on idle.point applies, none.1, none.2]
    rfl
  rw [Pipeline.SameReplies, assemble_finish, assemble_finish] at same
  obtain ⟨t, _, z, hz⟩ := ExchangeJob.exists_runs (Pipeline.intercept
    (.ofPlugins (before ++ after)) >>= fun _ => handled.forM (·.complete)) y
  obtain ⟨w, z', hz', -, -, bytes⟩ := same.1 t z hz
  obtain ⟨v, _, _, m, rfl, hm, hl⟩ := ExchangeJob.runs_bind_iff.mp hz
  obtain ⟨v', _, _, m', rfl, hm', hl'⟩ := ExchangeJob.runs_bind_iff.mp hz'
  rw [(quiet hl).1, (quiet hl').1, Pipeline.response_of_none open_ none hm,
    Pipeline.response_of_idle open_ idle only fits hm'] at bytes
  exact (Response.buffer_within fits).2.2.2.2.mp bytes

lemma handled_quiet (run : Job.Run (Pipeline.runStages [] (a.assemble plan).stages x) u (handled, y)) :
    (handled.forM fun s : Stage => s.complete).Quiet := by
  obtain ⟨ran, rfl, ends⟩ := Pipeline.ends_of_run run
  refine .forM fun s hs => @complete_quiet a plan s (ends.isPrefix.subset ?_)
  simpa using hs

end Assembly

/-- Reading a response into memory keeps its status, its headers but for the size, and its bytes, unless
they are in memory already. So an idle interceptor more gives the same replies as long as reading
makes no difference to the others, and where no other applies exactly if the content that the stages
left was not in memory. -/
theorem idle_interceptor_replies (a : Assembly) (plan : Plan) (before after : List (Plugin Interceptor))
    {n : Plugin Interceptor} (on : n.enabled = true) (idle : n.behaviour.Idle) :
    let others := InterceptorRegistry.ofPlugins (before ++ after)
    let p := (a.withInterceptors (before ++ after)).assemble plan
    let q := (a.withInterceptors (before ++ n :: after)).assemble plan
    (∀ (r : Response) (limits : ContentLimits), r.body.Fits limits →
      (r.buffer limits).2 = .ok () ∧ (r.buffer limits).1.status = r.status ∧
        (r.buffer limits).1.headers.remove "content-length" = r.headers.remove "content-length" ∧
        ((r.buffer limits).1.body.bytes = r.body.bytes ↔ ¬r.body.IsFull)) ∧
      q.stages = p.stages ∧
      (∀ x u handled y, Job.Run (Pipeline.runStages [] p.stages x) u (handled, y) →
        (Pipeline.Unseen n.behaviour others y → p.SameReplies q handled y) ∧
        (y.intercepted = false → n.behaviour.resolves y.marked = true →
          others.applicable y.marked = [] → y.response.body.Fits y.limits →
          (p.SameReplies q handled y ↔ ¬y.response.body.IsFull))) ∧
      ∀ x, (∀ u handled y, Job.Run (Pipeline.runStages [] p.stages x) u (handled, y) →
          Pipeline.Unseen n.behaviour others y) → p.AnsweredBy q x ∧ q.AnsweredBy p x := by
  intro others p q
  have stages : q.stages = p.stages := Assembly.stages_insert_idle on idle
  have alike {x u handled y} (run : Job.Run (Pipeline.runStages [] p.stages x) u (handled, y))
      (same : Pipeline.Unseen n.behaviour others y) : p.SameReplies q handled y :=
    Assembly.sameReplies_of_unseen on idle (Assembly.handled_quiet run) same
  refine ⟨fun r limits fits => ?_, stages, fun x u handled y run => ⟨alike run, ?_⟩,
    fun x same => ⟨?_, ?_⟩⟩
  · obtain ⟨read, status, headers, -, bytes⟩ := Response.buffer_within fits
    exact ⟨read, status, headers, bytes⟩
  · intro open_ applies none fits
    refine ⟨Assembly.not_isFull_of_sameReplies on idle (Assembly.handled_quiet run) open_ applies none fits,
      fun full => alike run (.inr (.inr (.inr ⟨?_, fits, full⟩)))⟩
    rw [none]
    nofun
  · exact Pipeline.answeredBy_of_followedBy stages fun u handled y run =>
      (alike run (same u handled y run)).1
  · refine Pipeline.answeredBy_of_followedBy stages.symm fun u handled y run => ?_
    rw [stages] at run
    exact (alike run (same u handled y run)).2

/-- A service's answer is in memory, so it is lost to an idle interceptor. -/
theorem greeting_lost_to_idle_interceptor :
    let idle : Plugin Interceptor :=
      { name := "idle", behaviour := { requiresContent := true, handle := pure () } }
    let greeting : Service :=
      { handle := Handler.changeResponse (·.setContent [104, 105] "text/plain") }
    let plan := Plan.service ⟨.service, "/", "greeting", false⟩ greeting
    let p := (Assembly.withInterceptors {} []).assemble plan
    let q := (Assembly.withInterceptors {} [idle]).assemble plan
    idle.enabled = true ∧ idle.behaviour.Idle ∧ ∃ u handled y,
      Job.Run (Pipeline.runStages [] p.stages (Exchange.ofRequest {} {})) u (handled, y) ∧
        y.response.body.IsFull ∧ ¬p.SameReplies q handled y := by
  intro idle greeting plan p q
  have run : Job.Run (Pipeline.runStages [] p.stages (Exchange.ofRequest {} {})) [] _ := .done _
  have nothing : idle.behaviour.Idle := ⟨rfl, rfl, rfl⟩
  obtain ⟨-, -, replies, -⟩ := idle_interceptor_replies {} plan [] [] (n := idle) rfl nothing
  obtain ⟨-, same⟩ := replies _ _ _ _ run
  have full : (ResponseBody.full [104, 105]).IsFull := ⟨_, List.cons_ne_nil _ _, rfl⟩
  refine ⟨rfl, nothing, _, _, _, run, full, fun h => ?_⟩
  exact (same rfl rfl rfl ⟨by decide, rfl⟩).mp h full

end Gateway
