import Gateway.Proofs.Pipeline.Interception

/-! The course of a pipeline. Of its stages just those up to the first that does not proceed are
handed the exchange, in order; then come the interceptors of the response; then the same stages are
told that the chain is over, in reverse order. Nothing is called twice and nothing else is called. -/
namespace Gateway

/-- The exchange is flagged as failed and answers with the status and the description of the
failure; nothing else of it changes. -/
structure Exchange.Fails (x : Exchange) (f : Failure) (y : Exchange) : Prop where
  flagged : y.inError = true
  status : y.response.status = f.status
  content : y.response.body = .full f.description.bytes
  headers : y.response.headers =
    (x.response.headers.remove "content-length").insertText "content-type" "application/json"
  rest : { y with inError := x.inError, response := x.response } = x

lemma Exchange.fails_iff {x y : Exchange} {f : Failure} : x.Fails f y ↔ y = x.fail f := by
  constructor
  · intro h
    have response : y.response = x.response.setFailure f := by
      rw [Response.setFailure, Response.setJson, Response.setContent, Response.mk.injEq]
      exact ⟨h.status, h.headers, h.content⟩
    have whole : y = { x with inError := y.inError, response := y.response } := by
      rw [← h.rest]
    rw [whole, h.flagged, response]
    rfl
  · rintro rfl
    exact ⟨rfl, rfl, rfl, rfl, rfl⟩

/-- What a pipeline calls: a stage that comes to an outcome, the interceptors of the response, or the
completion of a stage. -/
inductive Call where
  | handle (s : Stage) (outcome : Except Failure Flow)
  | intercept (r : InterceptorRegistry)
  | complete (s : Stage)

/-- With the answers `t`, the call turns one exchange into another. A failed stage leaves its failure
as the response, and interceptors leave an exchange alone that has met them. -/
def Call.Runs : Call → Exchange → Trace → Exchange → Prop
  | handle s (.ok flow), x, t, y => s.handle.Runs x t (.ok flow) y
  | handle s (.error f), x, t, z => ∃ u y, t = u ++ Trace.releases (Exchange.dropped y z) ∧
    s.handle.Runs x u (.error f) y ∧ y.Fails f z
  | intercept r, x, t, y =>
    if x.intercepted then t = [] ∧ y = x
    else (Pipeline.meet (r.applicable x.marked)).Runs x.marked t () y
  | complete s, x, t, y => s.complete.Runs x t () y

/-- Calls that are made one after another, each of them once. -/
def Call.RunAll : List Call → Exchange → Trace → Exchange → Prop
  | [], x, t, y => t = [] ∧ y = x
  | c :: rest, x, t, z => ∃ u v y, t = u ++ v ∧ c.Runs x u y ∧ RunAll rest y v z

lemma Call.runAll_append_iff {calls more : List Call} {x z : Exchange} {t : Trace} :
    RunAll (calls ++ more) x t z ↔ ∃ u v y, t = u ++ v ∧ RunAll calls x u y ∧ RunAll more y v z := by
  induction calls generalizing x t with
  | nil =>
    constructor
    · intro h
      exact ⟨[], t, x, rfl, ⟨rfl, rfl⟩, h⟩
    · rintro ⟨u, v, y, rfl, ⟨rfl, rfl⟩, h⟩
      exact h
  | cons c rest ih =>
    constructor
    · rintro ⟨u, w, y, rfl, head, tail⟩
      obtain ⟨v, w, m, rfl, front, back⟩ := ih.mp tail
      exact ⟨u ++ v, w, m, (List.append_assoc ..).symm, ⟨u, v, y, rfl, head, front⟩, back⟩
    · rintro ⟨_, w, m, rfl, ⟨u, v, y, rfl, head, front⟩, back⟩
      exact ⟨u, v ++ w, y, List.append_assoc .., head, ih.mpr ⟨v, w, m, rfl, front, back⟩⟩

/-- The outcomes of the stages that were called: they are the first ones, all but the last of these
proceeded, and the last did not unless there are no more. -/
structure IsCourse (stages : List Stage) (outcomes : List (Except Failure Flow)) : Prop where
  within : outcomes.length ≤ stages.length
  proceeds : ∀ o ∈ outcomes.dropLast, o = .ok .proceed
  complete : outcomes.length = stages.length ∨ ∃ o, outcomes.getLast? = some o ∧ o ≠ .ok .proceed

section IsCourse
variable {s : Stage} {rest : List Stage} {outcomes : List (Except Failure Flow)}

lemma isCourse_nil_iff : IsCourse [] outcomes ↔ outcomes = [] := by
  constructor
  · intro h
    exact List.length_eq_zero_iff.mp (Nat.le_zero.mp h.within)
  · rintro rfl
    exact ⟨Nat.le_refl _, nofun, .inl rfl⟩

/-- A stage that proceeds leaves the course to the others, any other stage ends it. -/
lemma isCourse_cons_iff : IsCourse (s :: rest) outcomes ↔ ∃ o more, outcomes = o :: more ∧
    (o = .ok .proceed ∧ IsCourse rest more ∨ o ≠ .ok .proceed ∧ more = []) := by
  constructor
  · rintro ⟨within, proceeds, complete⟩
    match outcomes with
    | [] => simp at complete
    | [o] =>
      refine ⟨o, [], rfl, ?_⟩
      by_cases on : o = .ok .proceed
      · refine .inl ⟨on, Nat.zero_le _, nofun, .inl ?_⟩
        simpa [on, eq_comm] using complete
      · exact .inr ⟨on, rfl⟩
    | o :: m :: more =>
      rw [List.dropLast_cons_of_ne_nil (List.cons_ne_nil m more)] at proceeds
      refine ⟨o, m :: more, rfl, .inl ⟨proceeds o List.mem_cons_self, ?_, fun o' ho =>
        proceeds o' (List.mem_cons_of_mem _ ho), ?_⟩⟩
      · exact Nat.le_of_succ_le_succ within
      · rw [List.getLast?_cons_cons] at complete
        exact complete.imp_left Nat.succ.inj
  · rintro ⟨o, more, rfl, ⟨rfl, within, proceeds, complete⟩ | ⟨off, rfl⟩⟩
    · refine ⟨Nat.succ_le_succ within, fun o ho => ?_, ?_⟩
      · cases more with
        | nil => simp at ho
        | cons m more =>
          rw [List.dropLast_cons_of_ne_nil (List.cons_ne_nil m more)] at ho
          rcases List.mem_cons.mp ho with rfl | ho
          · rfl
          · exact proceeds o ho
      · rcases complete with all | ⟨o, last, off⟩
        · exact .inl (congrArg Nat.succ all)
        · refine .inr ⟨o, ?_, off⟩
          cases more with
          | nil => cases last
          | cons m more => rwa [List.getLast?_cons_cons]
    · exact ⟨Nat.succ_le_succ (Nat.zero_le _), nofun, .inr ⟨o, rfl, off⟩⟩

end IsCourse

namespace Pipeline
variable {stages done handled : List Stage} {x y z : Exchange} {t : Trace}

/-- All that the pipeline calls when its stages come to these outcomes. -/
def calls (p : Pipeline) (outcomes : List (Except Failure Flow)) : List Call :=
  List.zipWith .handle p.stages outcomes ++ (p.interceptors.toList.map .intercept ++
    (p.stages.take outcomes.length).reverse.map .complete)

/-- The stages are called on a course, and those that were called are left for completion. -/
theorem run_runStages_iff : Job.Run (runStages done stages x) t (handled, y) ↔
    ∃ outcomes, IsCourse stages outcomes ∧ handled = (stages.take outcomes.length).reverse ++ done ∧
      Call.RunAll (List.zipWith .handle stages outcomes) x t y := by
  induction stages generalizing x t done with
  | nil =>
    rw [runStages, Job.pure_eq, Job.run_done_iff, Prod.mk.injEq]
    constructor
    · rintro ⟨rfl, rfl, rfl⟩
      exact ⟨[], isCourse_nil_iff.mpr rfl, rfl, rfl, rfl⟩
    · rintro ⟨outcomes, course, rfl, same⟩
      obtain rfl := isCourse_nil_iff.mp course
      exact ⟨same.1, rfl, same.2⟩
  | cons s rest ih =>
    rw [runStages_cons, Job.run_bind_iff]
    constructor
    · rintro ⟨u, v, ⟨o, m⟩, rfl, head, tail⟩
      match o with
      | .ok .proceed =>
        obtain ⟨outcomes, course, rfl, calls⟩ := ih.mp tail
        refine ⟨.ok .proceed :: outcomes, isCourse_cons_iff.mpr ⟨_, _, rfl, .inl ⟨rfl, course⟩⟩, ?_,
          u, v, m, rfl, head, calls⟩
        simp
      | .ok .stop =>
        obtain ⟨rfl, e⟩ := Job.run_done_iff.mp tail
        obtain ⟨rfl, rfl⟩ := Prod.mk.inj e
        exact ⟨[.ok .stop], isCourse_cons_iff.mpr ⟨_, _, rfl, .inr ⟨nofun, rfl⟩⟩, rfl,
          u, [], y, rfl, head, by rw [List.zipWith_nil_right]; exact ⟨rfl, rfl⟩⟩
      | .error f =>
        obtain ⟨v, w, ⟨_, q⟩, rfl, hv, hw⟩ := Job.run_bind_iff.mp tail
        obtain ⟨rfl, e⟩ := Job.run_done_iff.mp hw
        obtain ⟨rfl, rfl⟩ := Prod.mk.inj e
        obtain ⟨rfl, rfl⟩ := ExchangeJob.runs_change_iff.mp hv
        exact ⟨[.error f], isCourse_cons_iff.mpr ⟨_, _, rfl, .inr ⟨nofun, rfl⟩⟩, rfl,
          _, [], m.fail f, by simp, ⟨u, m, rfl, head, Exchange.fails_iff.mpr rfl⟩,
          by rw [List.zipWith_nil_right]; exact ⟨rfl, rfl⟩⟩
    · rintro ⟨outcomes, course, rfl, calls⟩
      obtain ⟨o, more, rfl, ⟨rfl, others⟩ | ⟨off, rfl⟩⟩ := isCourse_cons_iff.mp course
      · obtain ⟨u, v, m, rfl, head, tail⟩ := calls
        refine ⟨u, v, (.ok .proceed, m), rfl, head, ih.mpr ⟨more, others, ?_, tail⟩⟩
        simp
      · obtain ⟨u, v, m, rfl, head, tail⟩ := calls
        rw [List.zipWith_nil_right] at tail
        obtain ⟨rfl, rfl⟩ := tail
        match o with
        | .ok .proceed => exact absurd rfl off
        | .ok .stop => exact ⟨u, [], (.ok .stop, y), rfl, head, .done _⟩
        | .error f =>
          obtain ⟨u, m, rfl, head, fails⟩ := head
          obtain rfl := Exchange.fails_iff.mp fails
          refine ⟨u, _, (.error f, m), by rw [List.append_nil], head, Job.run_bind_iff.mpr
            ⟨_, [], ((), m.fail f), (List.append_nil _).symm, ?_, .done _⟩⟩
          exact ExchangeJob.runs_change_iff.mpr ⟨rfl, rfl⟩

lemma runs_intercept_iff {r : InterceptorRegistry} :
    (intercept r).Runs x t () y ↔ (Call.intercept r).Runs x t y := by
  change Job.Run ((intercept r).run x) t ((), y) ↔ ite _ _ _
  rw [run_intercept]
  split
  · rw [Job.pure_eq, Job.run_done_iff, Prod.mk.injEq, and_iff_right rfl]
  · exact Iff.rfl

lemma runs_complete_iff : (handled.forM (·.complete)).Runs x t () y ↔
    Call.RunAll (handled.map .complete) x t y := by
  induction handled generalizing x t with
  | nil =>
    change ExchangeJob.Runs (pure ()) x t () y ↔ _
    simp [Call.RunAll]
  | cons s rest ih =>
    change ExchangeJob.Runs (s.complete >>= fun _ => rest.forM (·.complete)) x t () y ↔ _
    rw [ExchangeJob.runs_bind_iff]
    constructor
    · rintro ⟨u, v, _, m, rfl, head, tail⟩
      exact ⟨u, v, m, rfl, head, ih.mp tail⟩
    · rintro ⟨u, v, m, rfl, head, tail⟩
      exact ⟨u, v, (), m, rfl, head, ih.mpr tail⟩

lemma runs_finish_iff {p : Pipeline} : (p.finish handled).Runs x t () y ↔
    Call.RunAll (p.interceptors.toList.map .intercept ++ handled.map .complete) x t y := by
  rw [finish, ExchangeJob.runs_bind_iff, Call.runAll_append_iff]
  simp only [runs_complete_iff]
  cases p.interceptors with
  | none => simp [Call.RunAll]
  | some r =>
    constructor
    · rintro ⟨u, v, _, m, rfl, head, tail⟩
      exact ⟨u, v, m, rfl, ⟨u, [], m, by simp, runs_intercept_iff.mp head, rfl, rfl⟩, tail⟩
    · rintro ⟨_, v, m, rfl, ⟨u, _, q, rfl, head, rfl, rfl⟩, tail⟩
      exact ⟨u, v, (), m, by simp, runs_intercept_iff.mpr head, tail⟩

/-- A pipeline comes to its end with every exchange. However it is answered on the way, it makes the
calls of a course in their order, and it can be led along every course. -/
theorem run_execute_iff_course (p : Pipeline) (x : Exchange) :
    (∃ t z, Job.Run (p.execute x) t z) ∧ ∀ t z, Job.Run (p.execute x) t z ↔
      ∃ outcomes, IsCourse p.stages outcomes ∧ Call.RunAll (p.calls outcomes) x t z := by
  refine ⟨(p.execute x).exists_run, fun t z => ?_⟩
  rw [run_execute_iff]
  constructor
  · rintro ⟨u, v, handled, y, rfl, run, rest⟩
    obtain ⟨outcomes, course, rfl, calls⟩ := run_runStages_iff.mp run
    rw [List.append_nil, runs_finish_iff] at rest
    exact ⟨outcomes, course, Call.runAll_append_iff.mpr ⟨u, v, y, rfl, calls, rest⟩⟩
  · rintro ⟨outcomes, course, calls⟩
    obtain ⟨u, v, y, rfl, calls, rest⟩ := Call.runAll_append_iff.mp calls
    refine ⟨u, v, _, y, rfl, run_runStages_iff.mpr ⟨outcomes, course, rfl, calls⟩, ?_⟩
    rw [List.append_nil, runs_finish_iff]
    exact rest

end Pipeline
end Gateway
