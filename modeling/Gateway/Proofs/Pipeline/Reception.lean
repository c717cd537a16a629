import Gateway.Proofs.Pipeline.Blueprint
import Gateway.Proofs.Pipeline.Idle

/-! How a response is received by its interceptors. Those that are due are handled one after another whatever
became of the request, once for an exchange. If one of them needs content that cannot be read, none is
due. -/
namespace Gateway

/-- With the answers `t`, the interceptor is handled. Its failure is worth an alert and becomes the
response. -/
def Interceptor.Handled (i : Interceptor) (x : Exchange) (t : Trace) (z : Exchange) : Prop :=
  i.handle.Runs x t (.ok ()) z ∨ ∃ u f y,
    t = u ++ ⟨.emit (.error "Response interceptor failed"), ()⟩ :: Trace.releases (Exchange.dropped y z) ∧
      i.handle.Runs x u (.error f) y ∧ y.Fails f z

/-- Interceptors that are handled one after another, each of them once. -/
def Interceptor.HandledAll : List Interceptor → Exchange → Trace → Exchange → Prop
  | [], x, t, y => t = [] ∧ y = x
  | i :: rest, x, t, z => ∃ u v y, t = u ++ v ∧ i.Handled x u y ∧ HandledAll rest y v z

/-- What is done with an exchange before the interceptors `list` of its response are handled. The exchange is
marked, and if one of those that apply needs the content, the response is read into memory; a response
that cannot be read gives way to the failure, and no interceptor is handled. -/
inductive InterceptorRegistry.Prepares (r : InterceptorRegistry) (x : Exchange) :
    List Interceptor → Trace → Exchange → Prop where
  | again (marked : x.intercepted = true) : Prepares r x [] [] x
  | mark (first : x.intercepted = false) (any : (r.applicable x.marked).any (·.requiresContent) = false) :
      Prepares r x (r.applicable x.marked) [] x.marked
  | read (first : x.intercepted = false) (any : (r.applicable x.marked).any (·.requiresContent) = true)
      (readable : x.response.isReadable x.limits = true) :
      Prepares r x (r.applicable x.marked)
        (Trace.releases (Exchange.dropped x.marked x.marked.buffered)) x.marked.buffered
  | lost {f : Failure} {y : Exchange} (first : x.intercepted = false)
      (any : (r.applicable x.marked).any (·.requiresContent) = true)
      (why : (x.response.buffer x.limits).2 = .error f) (fails : x.marked.buffered.Fails f y) :
      Prepares r x [] (Trace.releases (Exchange.dropped x.marked x.marked.buffered) ++
        ⟨.emit (.warning "Cannot buffer response content for interceptors"), ()⟩ ::
          Trace.releases (Exchange.dropped x.marked.buffered y)) y

/-- The interceptors of the response that are handled when the chain has left an exchange: all that apply,
unless it has met them before or one of them needs content that cannot be read. -/
def InterceptorRegistry.due (r : InterceptorRegistry) (x : Exchange) : List Interceptor :=
  if x.intercepted then []
  else if (r.applicable x.marked).any (·.requiresContent) && !x.response.isReadable x.limits then []
  else r.applicable x.marked

lemma InterceptorRegistry.mem_of_mem_due {r : InterceptorRegistry} {i : Interceptor} {x : Exchange}
    (h : i ∈ r.due x) : i ∈ r.atPoint .response := by
  unfold due at h
  split at h
  · cases h
  · split at h
    · cases h
    · exact (List.mem_filter.mp h).1

lemma InterceptorRegistry.Prepares.eq_due {r : InterceptorRegistry} {x y : Exchange}
    {list : List Interceptor} {t : Trace} (h : r.Prepares x list t y) : list = r.due x := by
  cases h with
  | again marked => simp [due, marked]
  | mark first any => simp [due, first, any]
  | read first any readable => simp [due, first, readable]
  | lost first any why _ =>
    have unreadable : x.response.isReadable x.limits = false := by
      by_contra readable
      have ok := Response.buffer_ok_iff.mpr (Bool.not_eq_false _ ▸ readable)
      cases ok.symm.trans why
    simp [due, first, any, unreadable]

lemma InterceptorRegistry.Prepares.marked {r : InterceptorRegistry} {x y : Exchange}
    {list : List Interceptor} {t : Trace} (h : r.Prepares x list t y) : y.intercepted = true := by
  cases h with
  | again marked => exact marked
  | mark | read => rfl
  | lost _ _ _ fails =>
    rw [Exchange.fails_iff.mp fails]
    rfl

namespace Pipeline
variable {r : InterceptorRegistry} {i : Interceptor} {list : List Interceptor} {x z : Exchange} {t : Trace}
open Interceptor

/-- An alert, and the failure as the response. -/
lemma runs_failure_iff {event : Event} {f : Failure} :
    ExchangeJob.Runs (do liftM (Job.emit event); Exchange.change (·.fail f)) x t () z ↔
      t = ⟨.emit event, ()⟩ :: Trace.releases (Exchange.dropped x z) ∧ x.Fails f z := by
  rw [ExchangeJob.runs_bind_iff, Exchange.fails_iff]
  constructor
  · rintro ⟨u, v, _, y, rfl, hu, hv⟩
    obtain ⟨said, rfl⟩ := ExchangeJob.runs_lift_iff.mp hu
    obtain rfl := Job.run_perform_iff.mp said
    obtain ⟨rfl, rfl⟩ := ExchangeJob.runs_change_iff.mp hv
    exact ⟨rfl, rfl⟩
  · rintro ⟨rfl, rfl⟩
    exact ⟨[_], _, (), x, rfl, ExchangeJob.runs_lift_iff.mpr ⟨Job.run_perform_iff.mpr rfl, rfl⟩,
      ExchangeJob.runs_change_iff.mpr ⟨rfl, rfl⟩⟩

lemma runs_runResponseInterceptor_iff : (runResponseInterceptor i).Runs x t () z ↔ i.Handled x t z := by
  rw [runResponseInterceptor, ExchangeJob.runs_bind_iff]
  constructor
  · rintro ⟨u, v, outcome, y, rfl, hu, hv⟩
    cases outcome with
    | ok =>
      obtain ⟨rfl, -, rfl⟩ := ExchangeJob.runs_pure_iff.mp hv
      rw [List.append_nil]
      exact .inl hu
    | error f =>
      obtain ⟨rfl, fails⟩ := runs_failure_iff.mp hv
      exact .inr ⟨u, f, y, rfl, hu, fails⟩
  · rintro (done | ⟨u, f, y, rfl, failed, fails⟩)
    · exact ⟨t, [], .ok (), z, (List.append_nil t).symm, done,
        ExchangeJob.runs_pure_iff.mpr ⟨rfl, rfl, rfl⟩⟩
    · exact ⟨u, _, .error f, y, rfl, failed, runs_failure_iff.mpr ⟨rfl, fails⟩⟩

lemma runs_forM_iff : (list.forM runResponseInterceptor).Runs x t () z ↔ HandledAll list x t z := by
  induction list generalizing x t with
  | nil =>
    change ExchangeJob.Runs (pure ()) x t () z ↔ _
    simp [HandledAll]
  | cons i rest ih =>
    change ExchangeJob.Runs (runResponseInterceptor i >>= fun _ => rest.forM runResponseInterceptor)
      x t () z ↔ _
    rw [ExchangeJob.runs_bind_iff]
    constructor
    · rintro ⟨u, v, _, y, rfl, head, tail⟩
      exact ⟨u, v, y, rfl, runs_runResponseInterceptor_iff.mp head, ih.mp tail⟩
    · rintro ⟨u, v, y, rfl, head, tail⟩
      exact ⟨u, v, (), y, rfl, runs_runResponseInterceptor_iff.mpr head, ih.mpr tail⟩

/-- When the response can be read, the rest goes on from there. -/
lemma runs_afterBuffering_of_ok {j : ExchangeJob Unit} (read : (x.response.buffer x.limits).2 = .ok ()) :
    (afterBuffering j).Runs x t () z ↔
      ∃ v, t = Trace.releases (Exchange.dropped x x.buffered) ++ v ∧ j.Runs x.buffered v () z := by
  rw [afterBuffering, ExchangeJob.runs_bind_iff]
  constructor
  · rintro ⟨u, v, outcome, y, rfl, hu, hv⟩
    obtain ⟨ho, rfl, rfl⟩ := runs_bufferResponse_iff.mp hu
    obtain rfl := ho.trans read
    exact ⟨v, rfl, hv⟩
  · rintro ⟨v, rfl, hv⟩
    exact ⟨_, v, .ok (), _, rfl, runs_bufferResponse_iff.mpr ⟨read.symm, rfl, rfl⟩, hv⟩

/-- When it cannot be read, the failure is all. -/
lemma runs_afterBuffering_of_error {j : ExchangeJob Unit} {f : Failure}
    (lost : (x.response.buffer x.limits).2 = .error f) : (afterBuffering j).Runs x t () z ↔
      t = Trace.releases (Exchange.dropped x x.buffered) ++
        ⟨.emit (.warning "Cannot buffer response content for interceptors"), ()⟩ ::
          Trace.releases (Exchange.dropped x.buffered z) ∧ x.buffered.Fails f z := by
  rw [afterBuffering, ExchangeJob.runs_bind_iff]
  constructor
  · rintro ⟨u, v, outcome, y, rfl, hu, hv⟩
    obtain ⟨ho, rfl, rfl⟩ := runs_bufferResponse_iff.mp hu
    obtain rfl := ho.trans lost
    obtain ⟨rfl, fails⟩ := runs_failure_iff.mp hv
    exact ⟨rfl, fails⟩
  · rintro ⟨rfl, fails⟩
    exact ⟨_, _, .error f, _, rfl, runs_bufferResponse_iff.mpr ⟨lost.symm, rfl, rfl⟩,
      runs_failure_iff.mpr ⟨rfl, fails⟩⟩

/-- An exchange is prepared for the interceptors, and they are handled from there. -/
theorem runs_intercept_iff_prepared : (intercept r).Runs x t () z ↔
    ∃ list u v y, t = u ++ v ∧ r.Prepares x list u y ∧ HandledAll list y v z := by
  rw [runs_intercept_iff]
  change ite _ _ _ ↔ _
  constructor
  · intro run
    split at run
    · next marked =>
      obtain ⟨rfl, rfl⟩ := run
      exact ⟨[], [], [], _, rfl, .again marked, rfl, rfl⟩
    · next first =>
      rw [Bool.not_eq_true] at first
      unfold meet at run
      split at run
      · next any =>
        match outcome : (x.response.buffer x.limits).2 with
        | .ok () =>
          obtain ⟨v, rfl, rest⟩ := (runs_afterBuffering_of_ok (x := x.marked) outcome).mp run
          exact ⟨_, _, v, _, rfl, .read first any (Response.buffer_ok_iff.mp outcome), runs_forM_iff.mp rest⟩
        | .error f =>
          obtain ⟨rfl, fails⟩ := (runs_afterBuffering_of_error (x := x.marked) outcome).mp run
          exact ⟨_, _, [], z, (List.append_nil _).symm, .lost first any outcome fails, rfl, rfl⟩
      · next any =>
        exact ⟨_, [], t, _, rfl, .mark first (Bool.not_eq_true _ ▸ any), runs_forM_iff.mp run⟩
  · rintro ⟨list, u, v, y, rfl, prepared, all⟩
    cases prepared with
    | again marked =>
      rw [if_pos marked]
      exact all
    | mark first any =>
      rw [if_neg (by rw [first]; nofun), meet, if_neg (by rw [any]; nofun)]
      exact runs_forM_iff.mpr all
    | read first any readable =>
      rw [if_neg (by rw [first]; nofun), meet, if_pos any,
        runs_afterBuffering_of_ok (x := x.marked) (Response.buffer_ok_iff.mpr readable)]
      exact ⟨v, rfl, runs_forM_iff.mpr all⟩
    | lost first any why fails =>
      obtain ⟨rfl, rfl⟩ := all
      rw [if_neg (by rw [first]; nofun), meet, if_pos any,
        runs_afterBuffering_of_error (x := x.marked) why]
      exact ⟨List.append_nil _, fails⟩

/-- With the answers `t`, the stages leave the exchange `y`, then the interceptors `list` of its response are
handled one after another, and then the stages that ran are told that the chain is over. -/
def Receives (p : Pipeline) (r : InterceptorRegistry) (x : Exchange) (t : Trace) (y : Exchange)
    (list : List Interceptor) (z : Exchange) : Prop :=
  ∃ u v w q handled m n, t = u ++ (v ++ w ++ q) ∧ Job.Run (runStages [] p.stages x) u (handled, y) ∧
    r.Prepares y list v m ∧ HandledAll list m w n ∧ (handled.forM (·.complete)).Runs n q () z

theorem run_execute_iff_receives {p : Pipeline} (h : p.interceptors = some r) :
    Job.Run (p.execute x) t z ↔ ∃ y list, p.Receives r x t y list z := by
  rw [run_execute_iff]
  simp only [finish_eq h, ExchangeJob.runs_bind_iff]
  constructor
  · rintro ⟨u, _, handled, y, rfl, run, _, q, _, n, rfl, met, told⟩
    obtain ⟨list, v, w, m, rfl, prepared, all⟩ := runs_intercept_iff_prepared.mp met
    exact ⟨y, list, u, v, w, q, handled, m, n, rfl, run, prepared, all, told⟩
  · rintro ⟨y, list, u, v, w, q, handled, m, n, rfl, run, prepared, all, told⟩
    exact ⟨u, _, handled, y, rfl, run, v ++ w, q, (), n, rfl,
      runs_intercept_iff_prepared.mpr ⟨list, v, w, m, rfl, prepared, all⟩, told⟩

end Pipeline

lemma Exchange.response_releaseContent (x : Exchange) : x.releaseContent.response = x.response := by
  unfold releaseContent
  split <;> rfl

namespace Assembly
variable {a : Assembly} {b : Blueprint} {x y z : Exchange} {t : Trace} {list : List Interceptor}

/-- A mark is not taken away by those who only do what exchanges offer. -/
lemma obeys_marked (h : a.Obeys .offered b) : (Rule.retaining (·.intercepted = true)).Admits ∧
    (∀ s ∈ (a.build b).stages, s.Obeys (.retaining (·.intercepted = true))) ∧
      ∀ i ∈ a.interceptors.atPoint .response, i.handle.Obeys (.retaining (·.intercepted = true)) := by
  have hR : (Rule.retaining (·.intercepted = true)).Admits :=
    Rule.admits_retaining fun h marked => h.sameCourse.intercepted.trans marked
  have kept : a.Obeys (.retaining (·.intercepted = true)) b :=
    h.mono (Rule.retaining_of_offered (·.intercepted))
  exact ⟨hR, obeys_stages hR (fun _ _ _ => id) (fun _ _ _ => id) kept, kept.interceptors .response⟩

/-- An exchange that has come to its end has met the interceptors. -/
lemma marked_of_receives (h : a.Obeys .offered b)
    (run : (a.build b).Receives a.interceptors x t y list z) : z.intercepted = true := by
  obtain ⟨hR, stages, interceptors⟩ := obeys_marked h
  obtain ⟨u, v, w, q, handled, m, n, -, ran, prepared, all, told⟩ := run
  -- The mark is made before the first interceptor, so it only has to be left by all that follows.
  have met : ∀ i ∈ list, i.handle.Obeys (.retaining (·.intercepted = true)) := by
    intro i hi
    rw [prepared.eq_due] at hi
    exact interceptors i (InterceptorRegistry.mem_of_mem_due hi)
  have marked : n.intercepted = true :=
    Pipeline.obeys_forM hR (fun _ _ => id) met (Pipeline.runs_forM_iff.mpr all) prepared.marked
  have complete : (handled.forM fun s : Stage => s.complete).Obeys (.retaining (·.intercepted = true)) := by
    obtain ⟨outcomes, -, rfl, -⟩ := Pipeline.run_runStages_iff.mp ran
    refine .forM hR.toComposes fun s hs => (stages s ?_).complete
    rw [List.append_nil, List.mem_reverse] at hs
    exact List.mem_of_mem_take hs
  exact complete told marked

/-- A marked exchange meets no interceptor in any pipeline. -/
lemma eq_nil_of_marked (h : a.Obeys .offered b) (marked : x.intercepted = true)
    (run : (a.build b).Receives a.interceptors x t y list z) : list = [] := by
  obtain ⟨hR, stages, -⟩ := obeys_marked h
  obtain ⟨u, v, w, q, handled, m, n, -, ran, prepared, -, -⟩ := run
  have still : y.intercepted = true :=
    Pipeline.obeys_runStages hR.toComposes (fun _ _ => id) (fun s hs => (stages s hs).handle) ran marked
  rw [prepared.eq_due, InterceptorRegistry.due, if_pos still]

/-- At the end of the chain no stage changes what `f` shows, if it is not of the request content and the
last stage does not. -/
lemma complete_keeps {γ : Type} {f : Exchange → γ} (content : ∀ x : Exchange, f x.releaseContent = f x)
    (terminal : b.terminal.complete.Obeys (.keeping f)) :
    ∀ s ∈ (a.build b).stages, s.complete.Obeys (.keeping f) := by
  have hR := Rule.composes_keeping f
  have idle {s : Stage} (h : s.complete = pure ()) : s.complete.Obeys (.keeping f) := h ▸ .pure hR ()
  have log : a.requestLog.complete.Obeys (.keeping f) :=
    (Stage.obeys_requestLog hR _ fun _ _ _ => rfl).complete
  simp only [build_stages, Blueprint.parts, Blueprint.upstream, List.forall_mem_map,
    List.forall_mem_append, List.forall_mem_cons]
  exact ⟨⟨forall_front (fun _ _ => idle rfl) (idle rfl), log, forall_inner (.change content) (idle rfl)
    (fun _ _ => idle rfl) (fun _ => idle rfl) (idle rfl) (idle rfl) (idle rfl) (idle rfl)⟩, terminal,
    List.forall_mem_nil _⟩

/-- At the end of a run the interceptors of the response are handled, and what they leave is left. -/
lemma interceptors_of_finish {γ : Type} {f : Exchange → γ} {handled : List Stage}
    (content : ∀ x : Exchange, f x.releaseContent = f x)
    (terminal : b.terminal.complete.Obeys (.keeping f))
    (ran : ∀ s ∈ handled, s ∈ (a.build b).stages)
    (h : ((a.build b).finish handled).Runs x t () z) :
    ∃ list u y v n, a.interceptors.Prepares x list u y ∧ Interceptor.HandledAll list y v n ∧ f z = f n := by
  rw [Pipeline.finish_eq build_interceptors, ExchangeJob.runs_bind_iff] at h
  obtain ⟨v, w, _, n, -, met, told⟩ := h
  -- First the response interceptors, then the ends of the stages that were begun, see the response.
  obtain ⟨list, u, v, y, -, prepared, all⟩ := Pipeline.runs_intercept_iff_prepared.mp met
  have complete : f z = f n :=
    (ExchangeJob.Obeys.forM (Rule.composes_keeping f) fun s hs =>
      complete_keeps content terminal s (ran s hs)) told
  exact ⟨list, u, y, v, n, prepared, all, complete⟩

lemma finish_keeps {γ : Type} {f : Exchange → γ} {handled : List Stage}
    (content : ∀ x : Exchange, f x.releaseContent = f x)
    (terminal : b.terminal.complete.Obeys (.keeping f))
    (prepares : ∀ list t y, a.interceptors.Prepares x list t y → f y = f x)
    (unaltered : ∀ i ∈ a.interceptors.atPoint .response,
      (Pipeline.runResponseInterceptor i).Obeys (.keeping f))
    (ran : ∀ s ∈ handled, s ∈ (a.build b).stages)
    (h : ((a.build b).finish handled).Runs x t () z) : f z = f x := by
  obtain ⟨list, u, y, v, n, prepared, all, complete⟩ := interceptors_of_finish content terminal ran h
  have handled_all : f n = f y := by
    refine (ExchangeJob.Obeys.forM (Rule.composes_keeping f) fun i hi => unaltered i ?_)
      (Pipeline.runs_forM_iff.mpr all)
    rw [prepared.eq_due] at hi
    exact InterceptorRegistry.mem_of_mem_due hi
  rw [complete, handled_all, prepares _ _ _ prepared]

/-- What becomes of the interceptors of the response. In every run they are handled one after another, also
after one of them failed, and however the chain ended. Handled are the enabled ones that resolve on
the exchange as the chain leaves it, in the order of their registration, unless one of these needs the
content of a streamed response that is too large or breaks off: then none of them is. An exchange
that came fresh has not met them before, and once it has come to its end it meets none in any
pipeline. -/
theorem response_received (a : Assembly) (plugins : List (Plugin Interceptor)) (b : Blueprint) :
    let g := a.withInterceptors plugins
    let p := g.build b
    let applying (y : Exchange) : List Interceptor :=
      (((plugins.filter (·.enabled)).map (·.behaviour)).filter (·.point = .response)).filter
        (·.resolves y.marked)
    (∀ x t z, Job.Run (p.execute x) t z ↔ ∃ y list, p.Receives g.interceptors x t y list z) ∧
      (∀ x t y list z, p.Receives g.interceptors x t y list z → list =
        if y.intercepted then []
        else if (applying y).any (·.requiresContent) && !y.response.isReadable y.limits then []
        else applying y) ∧
      (g.Obeys (.keeping (·.intercepted)) b → ∀ x t y list z, p.Receives g.interceptors x t y list z →
        y.intercepted = x.intercepted) ∧
      (g.Obeys .offered b → ∀ x t z, Job.Run (p.execute x) t z → z.intercepted = true ∧
        ∀ (c : Assembly) (d : Blueprint), c.Obeys .offered d → ∀ t' y list z',
          (c.build d).Receives c.interceptors z t' y list z' → list = []) := by
  intro g p applying
  refine ⟨fun x t z => Pipeline.run_execute_iff_receives build_interceptors, ?_, fun h => ?_, fun h => ?_⟩
  · rintro x t y list z ⟨u, v, w, q, handled, m, n, -, -, prepared, -, -⟩
    exact prepared.eq_due
  · rintro x t y list z ⟨u, v, w, q, handled, m, n, -, run, -, -, -⟩
    have hR : (Rule.keeping (·.intercepted)).Admits :=
      Rule.admits_keeping fun h => h.sameCourse.intercepted
    exact Pipeline.obeys_runStages hR.toComposes (fun _ _ => rfl)
      (obeys_handles hR (fun _ _ _ => rfl) h) run
  · intro x t z run
    obtain ⟨y, list, received⟩ := (Pipeline.run_execute_iff_receives build_interceptors).mp run
    have marked := marked_of_receives h received
    exact ⟨marked, fun c d hd t' y list z' => eq_nil_of_marked hd marked⟩

/-- A stream that breaks off keeps an interceptor that needs no content from being handled. -/
theorem response_received_broken :
    let needs : Interceptor := { requiresContent := true, handle := pure () }
    let plain : Interceptor := { handle := pure () }
    let broken : Service :=
      { handle := Handler.changeResponse (·.setStream (.stream [[112]] (some "disk gone"))) }
    let b := Blueprint.service ⟨.service, "/report", "report", false⟩ broken.stage false
    let g := Assembly.withInterceptors {} [⟨"needs", needs, "", true, false, none⟩,
      ⟨"plain", plain, "", true, false, none⟩]
    let x := Exchange.ofRequest {} {}
    g.Obeys (.keeping (·.intercepted)) b ∧ g.Obeys .offered b ∧
      ∃ t y z, (g.build b).Receives g.interceptors x t y [] z ∧ y.intercepted = x.intercepted ∧
        g.interceptors.applicable y.marked = [needs, plain] ∧ z.intercepted = true := by
  intro needs plain broken b g x
  have plugged {R : Rule} (hR : R.Admits) : g.Obeys R b := by
    have handle : broken.handle.Obeys R :=
      Handler.Obeys.changeResponse (f := (·.setStream (.stream [[112]] (some "disk gone")))) hR
    refine ⟨InterceptorRegistry.obeys_ofPlugins ?_, ⟨nofun, nofun⟩, Service.obeys_stage hR.toComposes handle⟩
    simp only [List.forall_mem_cons]
    exact ⟨.pure hR.toComposes (), .pure hR.toComposes (), nofun⟩
  have keeping : g.Obeys (.keeping (·.intercepted)) b :=
    plugged (Rule.admits_keeping fun h => h.sameCourse.intercepted)
  have offered := plugged Rule.admits_offered
  obtain ⟨runs, all, mark, again⟩ := response_received {} [⟨"needs", needs, "", true, false, none⟩,
    ⟨"plain", plain, "", true, false, none⟩] b
  obtain ⟨t, z, run⟩ := ((g.build b).execute x).exists_run
  obtain ⟨y, list, received⟩ := (runs x t z).mp run
  have none := all x t y list z received
  have left : y.response.body = .stream (.stream [[112]] (some "disk gone")) := by
    obtain ⟨u, v, w, q, handled, m, n, -, ran, -⟩ := received
    obtain ⟨-, same⟩ := Job.run_done_iff.mp ran
    rw [(Prod.mk.inj same).2]
    rfl
  have unreadable : y.response.isReadable y.limits = false := by
    rw [Response.isReadable, left]
    exact Bool.and_false _
  rw [unreadable] at none
  obtain rfl : list = [] := none.trans (by split <;> rfl)
  exact ⟨keeping, offered, t, y, z, received, mark keeping x t y [] z received, rfl,
    (again offered x t z run).1⟩

end Assembly
end Gateway
