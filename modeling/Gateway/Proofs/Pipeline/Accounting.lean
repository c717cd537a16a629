import Gateway.Proofs.Pipeline.Blueprint
import Gateway.Proofs.Pipeline.Idle

/-! What is written about a request. The request log is told last that the chain is over, because the stages
before it proceed always and do nothing at the end, so it accounts for the response as the client gets
it. -/
namespace Gateway

/-- What is written about an exchange: a measurement and, from level one on, a line of the log. -/
def RequestLog.account (level : Nat) (x : Exchange) : List Event :=
  .metric (.handled (pipelineName x) x.response.status) ::
    if 1 ≤ level then [.handled (record level x)] else []

namespace Trace

def emits (events : List Event) : Trace := events.map fun e => ⟨.emit e, ()⟩

lemma entries_account (level : Nat) (x : Exchange) :
    (emits (RequestLog.account level x)).entries = RequestLog.account level x := by
  unfold RequestLog.account
  split <;> rfl

end Trace

lemma Exchange.isContentAvailable_releaseContent (x : Exchange) :
    x.releaseContent.isContentAvailable = false := by
  unfold releaseContent isContentAvailable
  cases content : x.content <;> simp [content]

namespace Stage
variable {s : Stage} {x y : Exchange} {t : Trace}

/-- The request log makes its account and leaves the exchange. -/
lemma runs_complete_requestLog_iff {level : Nat} : (RequestLog.stage level).complete.Runs x t () y ↔
    t = Trace.emits (RequestLog.account level x) ∧ y = x := by
  have emits {event : Event} {z w : Exchange} {v : Trace} {u : Unit} :
      ExchangeJob.Runs (liftM (Job.emit event)) z v u w ↔ v = [⟨.emit event, ()⟩] ∧ w = z := by
    rw [ExchangeJob.runs_lift_iff, Job.emit, Job.run_perform_iff]
  change ExchangeJob.Runs (get >>= fun x => liftM (Job.emit _) >>= fun _ =>
    if level ≥ 1 then liftM (Job.emit _) else pure ()) x t () y ↔ _
  simp only [ExchangeJob.runs_bind_iff, ExchangeJob.runs_get_iff, emits, RequestLog.account]
  split
  · simp only [emits]
    constructor
    · rintro ⟨_, _, _, _, rfl, ⟨rfl, rfl, rfl⟩, _, _, _, _, rfl, ⟨rfl, rfl⟩, rfl, rfl⟩
      exact ⟨rfl, rfl⟩
    · rintro ⟨rfl, rfl⟩
      exact ⟨[], _, y, y, rfl, ⟨rfl, rfl, rfl⟩, [_], [_], (), y, rfl, ⟨rfl, rfl⟩, rfl, rfl⟩
  · simp only [ExchangeJob.runs_pure_iff]
    constructor
    · rintro ⟨_, _, _, _, rfl, ⟨rfl, rfl, rfl⟩, _, _, _, _, rfl, ⟨rfl, rfl⟩, rfl, -, rfl⟩
      exact ⟨rfl, rfl⟩
    · rintro ⟨rfl, rfl⟩
      exact ⟨[], _, y, y, rfl, ⟨rfl, rfl, rfl⟩, [_], [], (), y, rfl, ⟨rfl, rfl⟩, rfl, trivial, rfl⟩

/-- The stage always proceeds. -/
def Proceeds (s : Stage) : Prop := ∀ ⦃x t r y⦄, s.handle.Runs x t r y → r = .ok .proceed

lemma proceeds_of_change {name : String} {f : Exchange → Exchange} :
    Proceeds { name, handle := do Handler.change f; pure .proceed } := by
  intro x t r y run
  rcases Handler.runs_bind_iff.mp run with ⟨_, _, _, _, -, -, rest⟩ | ⟨e, -, failed⟩
  · exact (Handler.runs_pure_iff.mp rest).2.1
  · cases (Handler.runs_change_iff.mp failed).1

lemma proceeds_of_pure {name : String} {complete : ExchangeJob Unit} :
    Proceeds { name, handle := pure .proceed, complete } :=
  fun _ _ _ _ run => (Handler.runs_pure_iff.mp run).2.1

end Stage

namespace Pipeline
variable {front rest done handled : List Stage} {s : Stage} {x y z : Exchange} {t : Trace}

/-- What follows stages that always proceed is called. -/
lemma length_lt_of_proceeds {outcomes : List (Except Failure Flow)} (front_ : ∀ s ∈ front, s.Proceeds)
    (course : IsCourse (front ++ s :: rest) outcomes)
    (calls : Call.RunAll (List.zipWith .handle (front ++ s :: rest) outcomes) x t y) :
    front.length < outcomes.length := by
  induction front generalizing outcomes x t with
  | nil =>
    obtain ⟨o, more, rfl, -⟩ := isCourse_cons_iff.mp course
    exact Nat.zero_lt_succ _
  | cons f front ih =>
    obtain ⟨first, others⟩ := List.forall_mem_cons.mp front_
    obtain ⟨o, more, rfl, ⟨-, on⟩ | ⟨off, rfl⟩⟩ := isCourse_cons_iff.mp course
    · obtain ⟨u, v, m, rfl, -, tail⟩ := calls
      exact Nat.succ_lt_succ (ih others on tail)
    · obtain ⟨u, v, m, rfl, head, -⟩ := calls
      cases o with
      | ok flow => exact absurd (first head) off
      | error f =>
        obtain ⟨v, n, -, failed, -⟩ := head
        cases first failed

/-- So it is among the stages that are told in the end, right before those in front of it. -/
theorem handled_of_proceeds (front_ : ∀ s ∈ front, s.Proceeds)
    (run : Job.Run (runStages done (front ++ s :: rest) x) t (handled, y)) :
    ∃ later, later <+: rest ∧ handled = later.reverse ++ s :: front.reverse ++ done := by
  obtain ⟨outcomes, course, rfl, calls⟩ := run_runStages_iff.mp run
  obtain ⟨n, hn⟩ := Nat.exists_eq_add_of_lt (length_lt_of_proceeds front_ course calls)
  refine ⟨rest.take n, List.take_prefix n rest, ?_⟩
  rw [hn, Nat.add_assoc, List.take_length_add_append, List.take_succ_cons, List.reverse_append,
    List.reverse_cons, List.append_assoc (rest.take n).reverse, List.singleton_append]

end Pipeline

lemma Call.runAll_of_idle {stages : List Stage} {x y : Exchange} {t : Trace}
    (idle : ∀ s ∈ stages, s.complete = pure ()) (run : RunAll (stages.map .complete) x t y) :
    t = [] ∧ y = x := by
  induction stages generalizing x t with
  | nil => exact run
  | cons s rest ih =>
    obtain ⟨first, others⟩ := List.forall_mem_cons.mp idle
    obtain ⟨u, v, m, rfl, head, tail⟩ := run
    change s.complete.Runs x u () m at head
    rw [first] at head
    obtain ⟨rfl, -, rfl⟩ := ExchangeJob.runs_pure_iff.mp head
    exact ih others tail

/-- The name under which requests are counted. -/
def Blueprint.name (b : Blueprint) : String :=
  match b.info? with
  | some info => info.name
  | none => RequestLog.unmanagedName

namespace Assembly
variable {a : Assembly} {b : Blueprint} {x z : Exchange} {t : Trace}

/-- What follows the request log. -/
abbrev behind (a : Assembly) (b : Blueprint) : List Stage :=
  (b.inner a).map (Part.stage a.interceptors) ++ [b.terminal]

lemma build_stages_around_log : (a.build b).stages = b.front a ++ a.requestLog :: a.behind b := by
  rw [build_stages]
  simp [Blueprint.parts, Blueprint.upstream, Part.stage, Function.comp_def]

/-- The stages in front of the request log always proceed and do nothing when the chain is over. -/
lemma front_idle : ∀ s ∈ b.front a, s.Proceeds ∧ s.complete = pure () :=
  forall_front (fun _ _ => ⟨Stage.proceeds_of_change, rfl⟩) ⟨Stage.proceeds_of_change, rfl⟩

/-- In every run the request log is told last that the chain is over. -/
theorem account_of_run (run : Job.Run ((a.build b).execute x) t z) :
    ∃ u v w handled later y n,
      t = u ++ (v ++ (w ++ Trace.emits (RequestLog.account a.log.dumpLevel z))) ∧
      Job.Run (Pipeline.runStages [] (a.build b).stages x) u (handled, y) ∧
      (Call.intercept a.interceptors).Runs y v n ∧ later <+: a.behind b ∧
      handled = later.reverse ++ a.requestLog :: (b.front a).reverse ∧
      Call.RunAll (later.reverse.map .complete) n w z := by
  obtain ⟨u, _, handled, y, rfl, ran, rest⟩ := Pipeline.run_execute_iff.mp run
  rw [Pipeline.finish_eq build_interceptors, ExchangeJob.runs_bind_iff] at rest
  obtain ⟨v, q, _, n, rfl, met, told⟩ := rest
  rw [build_stages_around_log] at ran
  obtain ⟨later, within, all⟩ := Pipeline.handled_of_proceeds (fun s hs => (front_idle s hs).1) ran
  rw [List.append_nil] at all
  rw [Pipeline.runs_complete_iff, all, List.map_append, Call.runAll_append_iff] at told
  -- The stages are told in reverse: those behind the log, the log, and those in front, which do nothing.
  obtain ⟨w, _, m, rfl, others, e, d, k, rfl, log, idle⟩ := told
  obtain ⟨rfl, rfl⟩ := Stage.runs_complete_requestLog_iff.mp log
  obtain ⟨rfl, rfl⟩ := Call.runAll_of_idle
    (fun s hs => (front_idle s (List.mem_reverse.mp hs)).2) idle
  rw [← build_stages_around_log] at ran
  rw [List.append_nil]
  exact ⟨u, v, w, handled, later, y, n, rfl, ran, Pipeline.runs_intercept_iff.mp met, within, all, others⟩

/-- If what is plugged in writes nothing about requests, the account is all that is written. -/
lemma entries_of_run (silent : a.Obeys .silent b) (run : Job.Run ((a.build b).execute x) t z) :
    t.entries = RequestLog.account a.log.dumpLevel z := by
  obtain ⟨u, v, w, handled, later, y, n, rfl, ran, met, within, -, told⟩ := account_of_run run
  have hR := Rule.admits_silent
  have stages : u.entries = [] := Pipeline.obeys_runStages hR.toComposes Rule.fails_silent
    (obeys_handles hR (fun _ _ _ => rfl) silent) ran
  have interceptors : v.entries = [] := Pipeline.obeys_intercept hR Rule.fails_silent (fun _ => rfl)
    (silent.interceptors .response) met
  have completes : ∀ s ∈ a.behind b, s.complete.Obeys .silent := by
    simp only [List.forall_mem_append, List.forall_mem_map]
    exact ⟨fun part hp => (obeys_inner hR silent part hp).complete,
      List.forall_mem_singleton.mpr silent.terminal.complete⟩
  have rest : w.entries = [] := by
    refine Call.RunAll.obeys hR.toComposes ?_ told
    simp only [List.forall_mem_map, List.mem_reverse]
    exact fun s hs => Call.obeys_complete (completes s (within.subset hs))
  simp only [Trace.entries_append, stages, interceptors, rest, List.nil_append, Trace.entries_account]

/-- On a guarded route, the content is given up right before the account. -/
lemma released_of_run (guarded : b.isGuarded = true) (run : Job.Run ((a.build b).execute x) t z) :
    z.isContentAvailable = false := by
  obtain ⟨u, v, w, handled, later, y, n, -, ran, -, -, all, told⟩ := account_of_run run
  obtain ⟨rest, closer⟩ : ∃ rest, a.behind b = Stage.contentCloser :: rest := by
    cases b with
    | service | proxy => exact ⟨_, rfl⟩
    | static | notManaged => cases guarded
  have front : ∀ s ∈ b.front a ++ [a.requestLog], s.Proceeds :=
    List.forall_mem_append.mpr ⟨fun s hs => (front_idle s hs).1,
      List.forall_mem_singleton.mpr Stage.proceeds_of_pure⟩
  rw [build_stages_around_log, closer, List.append_cons] at ran
  obtain ⟨others, -, all'⟩ := Pipeline.handled_of_proceeds front ran
  have last : later.reverse = others.reverse ++ [Stage.contentCloser] := by
    refine (List.append_left_inj (a.requestLog :: (b.front a).reverse)).mp ?_
    rw [← all, all']
    simp
  rw [last, List.map_append, Call.runAll_append_iff] at told
  obtain ⟨_, _, m, rfl, -, _, _, _, rfl, head, rfl, rfl⟩ := told
  obtain ⟨-, rfl⟩ := ExchangeJob.runs_change_iff.mp head
  exact m.isContentAvailable_releaseContent

/-- The route's information is attached first of all, so it makes no difference what was attached before. -/
lemma execute_attached {info : RouteInfo} (route : b.info? = some info) (x : Exchange) :
    (a.build b).execute x = (a.build b).execute { x with info := some info } := by
  have attach (x : Exchange) : (Stage.routeInfo info).handle.run x =
      pure (.ok .proceed, { x with info := some info }) := by
    have nothing : Exchange.dropped x { x with info := some info } = [] := Exchange.dropped_eq_nil rfl
    change (Handler.change _ >>= fun _ => pure .proceed : Handler Flow).run x = _
    rw [Handler.run_change_bind, nothing]
    rfl
  have stages : (a.build b).stages = Stage.routeInfo info :: a.trace :: a.requestLog :: a.behind b := by
    rw [build_stages_around_log, Blueprint.front, route]
    rfl
  rw [Pipeline.execute_eq, Pipeline.execute_eq, stages, Pipeline.runStages_cons, Pipeline.runStages_cons,
    attach, attach]

/-- What is plugged in leaves the information, so it is the route's in the end. -/
lemma info_of_run (kept : a.Obeys (.keeping (·.info)) b) (fresh : b.info? = none → x.info = none)
    (run : Job.Run ((a.build b).execute x) t z) : z.info = b.info? := by
  have hR : (Rule.retaining (·.info = b.info?)).Admits :=
    Rule.admits_retaining fun h same => h.sameCourse.info.trans same
  have plugged : a.Obeys (.retaining (·.info = b.info?)) b := kept.mono fun same start => same.trans start
  have whole {x : Exchange} (start : x.info = b.info?) (run : Job.Run ((a.build b).execute x) t z) :
      z.info = b.info? :=
    Pipeline.obeys_execute hR.toComposes (obeys_calls hR (fun _ _ => id) (fun _ => id) (fun _ _ _ => id)
      (fun _ hi _ _ => hi.symm) plugged) run start
  cases route : b.info? with
  | none => exact (whole ((fresh route).trans route.symm) run).trans route
  | some info =>
    rw [execute_attached route] at run
    exact (whole route.symm run).trans route

/-- A request is accounted for on every way out. The last that a run does is to count the request and, from
level one on, to write its line, both with the status of the response as it is sent and under the
name of what the exchange is attached to; nothing else is written about it unless plugins write. The
name is the route's, or that of requests without a route, if plugins leave it. On a guarded route no
request content is left in memory. -/
theorem run_accounted (a : Assembly) (plugins : List (Plugin Interceptor)) (b : Blueprint)
    (run : Job.Run (((a.withInterceptors plugins).build b).execute x) t z) :
    let g := a.withInterceptors plugins
    let account : List Event := .metric (.handled (RequestLog.pipelineName z) z.response.status) ::
      if 1 ≤ a.log.dumpLevel then [.handled (RequestLog.record a.log.dumpLevel z)] else []
    (∃ u, t = u ++ Trace.emits account) ∧
      (RequestLog.record a.log.dumpLevel z).status = z.response.status ∧
      (RequestLog.record a.log.dumpLevel z).pipeline = RequestLog.pipelineName z ∧
      (g.Obeys .silent b → t.entries = account) ∧
      (g.Obeys (.keeping (·.info)) b → (b.info? = none → x.info = none) →
        RequestLog.pipelineName z = b.name) ∧
      (b.isGuarded = true → z.isContentAvailable = false) := by
  intro g account
  refine ⟨?_, rfl, rfl, fun silent => entries_of_run (a := g) silent run, fun kept fresh => ?_,
    fun guarded => released_of_run guarded run⟩
  · obtain ⟨u, v, w, handled, later, y, n, rfl, -⟩ := account_of_run run
    exact ⟨u ++ (v ++ w), by rw [List.append_assoc, List.append_assoc]; rfl⟩
  · rw [RequestLog.pipelineName, info_of_run (a := g) kept fresh run]
    rfl

/-- A request that gets no connection is counted and logged under the name of its route. -/
theorem run_accounted_refused :
    let b := Blueprint.proxy ⟨.proxy, "/", "backend", false⟩ (Proxy.stage ⟨"backend", 0, true⟩)
    let a : Assembly := { log := { dumpLevel := 1 } }
    let g := a.withInterceptors []
    let x := Exchange.ofRequest {} {}
    g.Obeys .silent b ∧ g.Obeys (.keeping (·.info)) b ∧ ∃ (t : Trace) (z : Exchange),
      Job.Run ((g.build b).execute x) t z ∧ z.response.status = .badGateway ∧
        t.entries = [.metric (.handled "backend" .badGateway), .handled (RequestLog.record 1 z)] ∧
        (RequestLog.record 1 z).pipeline = "backend" ∧ z.isContentAvailable = false := by
  intro b a g x
  have plugged {R : Rule} (hR : R.Admits) : g.Obeys R b :=
    ⟨InterceptorRegistry.obeys_ofPlugins (List.forall_mem_nil _), ⟨nofun, nofun⟩, Proxy.obeys_stage hR _⟩
  have silent := plugged Rule.admits_silent
  have kept : g.Obeys (.keeping (·.info)) b := plugged (Rule.admits_keeping fun h => h.sameCourse.info)
  have run : Job.Run ((g.build b).execute x) _ _ :=
    .ask (e := .lease 0) (.error (.backendUnavailable "backend"))
      (.ask (e := .emit _) () (.ask (e := .emit _) () (.done _)))
  obtain ⟨-, -, -, entries, name, released⟩ := run_accounted a [] b run
  have name := name kept nofun
  refine ⟨silent, kept, _, _, run, rfl, ?_, name, released rfl⟩
  rw [entries silent, name]
  rfl

/-- A response interceptor that puts other information on the exchange has the request counted and logged
under another name, and one that counts requests by itself has it counted twice. -/
theorem run_accounted_otherwise :
    let renames : Interceptor :=
      { handle := Handler.change fun x => { x with info := some ⟨.proxy, "/", "other", false⟩ } }
    let counts : Interceptor := { handle := liftM (Job.emit (.metric (.handled "other" .ok))) }
    let b := Blueprint.proxy ⟨.proxy, "/", "backend", false⟩ (Proxy.stage ⟨"backend", 0, true⟩)
    let a : Assembly := { log := { dumpLevel := 1 } }
    let p (i : Interceptor) := (a.withInterceptors [⟨"plugged", i, "", true, false, none⟩]).build b
    let x := Exchange.ofRequest {} {}
    b.name = "backend" ∧
      (∃ (t : Trace) (z : Exchange), Job.Run ((p renames).execute x) t z ∧
        t.entries = [.metric (.handled "other" .badGateway), .handled (RequestLog.record 1 z)] ∧
        (RequestLog.record 1 z).pipeline = "other") ∧
      ∃ (t : Trace) (z : Exchange), Job.Run ((p counts).execute x) t z ∧
        t.entries = [.metric (.handled "other" .ok), .metric (.handled "backend" .badGateway),
          .handled (RequestLog.record 1 z)] := by
  intro renames counts b a p x
  have renamed : Job.Run ((p renames).execute x) _ _ :=
    .ask (e := .lease 0) (.error (.backendUnavailable "backend"))
      (.ask (e := .emit _) () (.ask (e := .emit _) () (.done _)))
  have counted : Job.Run ((p counts).execute x) _ _ :=
    .ask (e := .lease 0) (.error (.backendUnavailable "backend"))
      (.ask (e := .emit _) () (.ask (e := .emit _) () (.ask (e := .emit _) () (.done _))))
  exact ⟨rfl, ⟨_, _, renamed, rfl, rfl⟩, _, _, counted, rfl⟩

end Assembly
end Gateway
