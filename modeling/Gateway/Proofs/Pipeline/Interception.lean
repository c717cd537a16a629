import Gateway.Proofs.Exchange.Buffering
import Gateway.Proofs.Pipeline.Passage

/-! Response interceptors, and what one more of them that does nothing but ask for the content makes of
a reply. Two runs are compared by what they were told: the answers to what they asked for. -/
namespace Gateway

/-- Effects whose answer tells something. -/
def Effect.asks : Effect → Bool
  | .verifyToken _ | .issueToken _ | .lease _ | .send _ _ => true
  | .emit _ | .reportFailure _ _ | .reportSuccess _ _ | .release _ | .pause _ => false

namespace Trace

/-- What was told along a run. -/
def told (t : Trace) : Trace := t.filter fun a => a.1.asks

@[simp] lemma told_append (t u : Trace) : told (t ++ u) = told t ++ told u := List.filter_append ..

@[simp] lemma told_releases (guards : List Guard) : told (releases guards) = [] := by
  induction guards with
  | nil => rfl
  | cons g rest ih => exact ih

end Trace

namespace Exchange
variable {x y z : Exchange}

/-- The exchanges differ at most in how the response body is held. -/
structure Alike (x y : Exchange) : Prop where
  rest : { y with response := x.response } = x
  response : Response.Alike x.response y.response

lemma Alike.symm (h : Alike x y) : Alike y x where
  rest := by rw [← h.rest]
  response := h.response.symm

lemma Alike.eq_of_response (h : Alike x y) : y = { x with response := y.response } := by
  rw [← h.rest]

/-- A failure replaces all that alike exchanges differ in. -/
lemma Alike.fail (h : Alike x y) (f : Failure) : Alike (x.fail f) (y.fail f) := by
  have response : (y.fail f).response = (x.fail f).response := by
    change Response.mk _ _ _ = Response.mk _ _ _
    rw [h.response.headers]
  have rest : { y.fail f with response := (x.fail f).response } = x.fail f := by
    rw [h.eq_of_response]
    rfl
  refine ⟨rest, ?_⟩
  rw [response]
  exact .refl _

end Exchange

namespace ExchangeJob
variable {α β : Type} {x y z : Exchange} {t : Trace}

/-- On alike exchanges, runs that are told the same leave alike exchanges. -/
def Blind (j : ExchangeJob α) : Prop :=
  ∀ ⦃x y t a z⦄, Exchange.Alike x y → j.Runs x t a z →
    ∃ u w, j.Runs y u a w ∧ Exchange.Alike z w ∧ u.told = t.told

namespace Blind

lemma pure (a : α) : Blind (pure a) := by
  intro x y t b z h hr
  obtain ⟨rfl, rfl, rfl⟩ := runs_pure_iff.mp hr
  exact ⟨[], y, runs_pure_iff.mpr ⟨rfl, rfl, rfl⟩, h, rfl⟩

lemma bind {j : ExchangeJob α} {k : α → ExchangeJob β} (hj : Blind j) (hk : ∀ a, Blind (k a)) :
    Blind (j >>= k) := by
  intro x y t b z h hr
  obtain ⟨u, v, a, m, rfl, hu, hv⟩ := runs_bind_iff.mp hr
  obtain ⟨u', m', hu', hm, eu⟩ := hj h hu
  obtain ⟨v', w, hv', hw, ev⟩ := hk a hm hv
  refine ⟨u' ++ v', w, runs_bind_iff.mpr ⟨u', v', a, m', rfl, hu', hv'⟩, hw, ?_⟩
  rw [Trace.told_append, Trace.told_append, eu, ev]

lemma lift (j : Job α) : Blind (liftM j : ExchangeJob α) := by
  intro x y t a z h hr
  obtain ⟨run, rfl⟩ := runs_lift_iff.mp hr
  exact ⟨t, y, runs_lift_iff.mpr ⟨run, rfl⟩, h, rfl⟩

lemma change {f : Exchange → Exchange} (hf : ∀ x y, Exchange.Alike x y → Exchange.Alike (f x) (f y)) :
    Blind (Exchange.change f) := by
  intro x y t u z h hr
  obtain ⟨rfl, rfl⟩ := runs_change_iff.mp hr
  exact ⟨_, f y, runs_change_iff.mpr ⟨rfl, rfl⟩, hf x y h, by simp⟩

end Blind

/-- Runs leave the response and are told nothing. -/
def Quiet (j : ExchangeJob α) : Prop :=
  ∀ ⦃x t a y⦄, j.Runs x t a y → y.response = x.response ∧ t.told = []

namespace Quiet

lemma pure (a : α) : Quiet (pure a) := by
  intro x t b y h
  obtain ⟨rfl, -, rfl⟩ := runs_pure_iff.mp h
  exact ⟨rfl, rfl⟩

lemma get : Quiet get := by
  intro x t a y h
  obtain ⟨rfl, -, rfl⟩ := runs_get_iff.mp h
  exact ⟨rfl, rfl⟩

lemma bind {j : ExchangeJob α} {k : α → ExchangeJob β} (hj : Quiet j) (hk : ∀ a, Quiet (k a)) :
    Quiet (j >>= k) := by
  intro x t b z h
  obtain ⟨u, v, a, y, rfl, hu, hv⟩ := runs_bind_iff.mp h
  obtain ⟨ey, eu⟩ := hj hu
  obtain ⟨ez, ev⟩ := hk a hv
  exact ⟨ez.trans ey, by rw [Trace.told_append, eu, ev, List.append_nil]⟩

lemma emit (event : Event) : Quiet (liftM (Job.emit event) : ExchangeJob Unit) := by
  intro x t u y h
  obtain ⟨run, rfl⟩ := runs_lift_iff.mp h
  obtain rfl := Job.run_perform_iff.mp run
  exact ⟨rfl, rfl⟩

lemma change {f : Exchange → Exchange} (hf : ∀ x, (f x).response = x.response) :
    Quiet (Exchange.change f) := by
  intro x t u y h
  obtain ⟨rfl, rfl⟩ := runs_change_iff.mp h
  exact ⟨hf x, Trace.told_releases _⟩

lemma forM {γ : Type} {f : γ → ExchangeJob Unit} {list : List γ} (h : ∀ c ∈ list, Quiet (f c)) :
    Quiet (list.forM f) := by
  induction list with
  | nil => exact pure ()
  | cons c rest ih =>
    exact bind (h c List.mem_cons_self) fun _ => ih fun d hd => h d (List.mem_cons_of_mem _ hd)

end Quiet
end ExchangeJob

/-- The handler does the same however the response body is held. -/
def Handler.Blind {α : Type} (h : Handler α) : Prop := ExchangeJob.Blind (ExceptT.run h)

namespace InterceptorRegistry

/-- The interceptors of the response that apply to an exchange. -/
def applicable (r : InterceptorRegistry) (x : Exchange) : List Interceptor :=
  (r.atPoint .response).filter (·.resolves x)

end InterceptorRegistry

/-- The exchange as its response interceptors see it. -/
def Exchange.marked (x : Exchange) : Exchange := { x with intercepted := true }

/-- The exchange with its response in memory. -/
def Exchange.buffered (x : Exchange) : Exchange :=
  { x with response := (x.response.buffer x.limits).1 }

namespace Pipeline
variable {x y z : Exchange} {t : Trace} {u : Unit}

/-- Read the response into memory and go on, unless it cannot be read. -/
def afterBuffering (j : ExchangeJob Unit) : ExchangeJob Unit := do
  match ← Handler.bufferResponse.run with
  | .ok () => j
  | .error f => do
    liftM (Job.warn "Cannot buffer response content for interceptors")
    Exchange.change (·.fail f)

/-- What some interceptors make of an exchange. -/
def meet (list : List Interceptor) : ExchangeJob Unit :=
  if list.any (·.requiresContent) then afterBuffering (list.forM runResponseInterceptor)
  else list.forM runResponseInterceptor

lemma intercept_eq (r : InterceptorRegistry) : intercept r = (do
    let x ← get
    if x.intercepted then return
    Exchange.change Exchange.marked
    let x ← get
    meet (r.applicable x)) := rfl

/-- Interceptors run once for an exchange. -/
theorem run_intercept (r : InterceptorRegistry) (x : Exchange) : (intercept r).run x =
    if x.intercepted then pure ((), x) else (meet (r.applicable x.marked)).run x.marked := by
  have marks : (Exchange.change Exchange.marked).run x = pure ((), x.marked) := by
    have nothing : Exchange.dropped x x.marked = [] := Exchange.dropped_eq_nil rfl
    change Exchange.releaseAll (Exchange.dropped x x.marked) >>= (fun _ => pure ((), x.marked)) = _
    rw [nothing]
    rfl
  rw [intercept_eq]
  change StateT.run (if x.intercepted then pure () else
    Exchange.change Exchange.marked >>= fun _ => get >>= fun x => meet (r.applicable x)) x = _
  split
  · rfl
  · rw [StateT.run_bind, marks]
    rfl

lemma runs_bufferResponse_iff {a : Except Failure Unit} :
    Handler.bufferResponse.Runs x t a y ↔ a = (x.response.buffer x.limits).2 ∧
      t = Trace.releases (Exchange.dropped x x.buffered) ∧ y = x.buffered :=
  Handler.runs_attempt_iff

/-- What is within the limit is read, and the rest goes on from there. -/
theorem runs_afterBuffering_iff {j : ExchangeJob Unit} (fits : x.response.body.Fits x.limits) :
    (afterBuffering j).Runs x t u z ↔
      ∃ v, t = Trace.releases (Exchange.dropped x x.buffered) ++ v ∧ j.Runs x.buffered v u z := by
  obtain ⟨read, -⟩ := Response.buffer_within fits
  rw [afterBuffering, ExchangeJob.runs_bind_iff]
  constructor
  · rintro ⟨v, w, a, y, rfl, hv, hw⟩
    obtain ⟨ha, rfl, rfl⟩ := runs_bufferResponse_iff.mp hv
    obtain rfl := ha.trans read
    exact ⟨w, rfl, hw⟩
  · rintro ⟨v, rfl, hv⟩
    exact ⟨_, v, .ok (), x.buffered, rfl, runs_bufferResponse_iff.mpr ⟨read.symm, rfl, rfl⟩, hv⟩

end Pipeline

/-- An interceptor of the response that asks for the content and does nothing. -/
structure Interceptor.Idle (i : Interceptor) : Prop where
  point : i.point = .response
  content : i.requiresContent = true
  nothing : i.handle = pure ()

namespace Pipeline
variable {x y z : Exchange} {t : Trace} {u : Unit} {i : Interceptor}
  {before after list : List Interceptor}

lemma runResponseInterceptor_idle (h : i.Idle) : runResponseInterceptor i = pure () := by
  rw [runResponseInterceptor, h.nothing]
  rfl

lemma forM_insert_idle (h : i.Idle) : (before ++ i :: after).forM runResponseInterceptor =
    (before ++ after).forM runResponseInterceptor := by
  simp only [List.forM_eq_forM, List.forM_append, List.forM_cons, runResponseInterceptor_idle h,
    pure_bind]

/-- All that an idle interceptor does is to have the response read. -/
theorem meet_insert_idle (h : i.Idle) : meet (before ++ i :: after) =
    afterBuffering ((before ++ after).forM runResponseInterceptor) := by
  have needed : (before ++ i :: after).any (·.requiresContent) = true :=
    List.any_eq_true.mpr ⟨i, List.mem_append_right _ List.mem_cons_self, h.content⟩
  rw [meet, if_pos needed, forM_insert_idle h]

lemma blind_runResponseInterceptor (h : i.handle.Blind) : (runResponseInterceptor i).Blind := by
  refine .bind h fun outcome => ?_
  cases outcome with
  | ok _ => exact .pure ()
  | error f => exact .bind (.lift _) fun _ => .change fun x y hxy => hxy.fail f

lemma blind_forM (h : ∀ i ∈ list, i.handle.Blind) : (list.forM runResponseInterceptor).Blind := by
  induction list with
  | nil => exact .pure ()
  | cons i rest ih =>
    exact .bind (blind_runResponseInterceptor (h i List.mem_cons_self)) fun _ =>
      ih fun j hj => h j (List.mem_cons_of_mem _ hj)

/-- What is left of a run when the stages are over. -/
def finish (p : Pipeline) (handled : List Stage) : ExchangeJob Unit := do
  (match p.interceptors with
    | some r => intercept r
    | none => pure ())
  handled.forM (·.complete)

lemma execute_eq (p : Pipeline) (x : Exchange) : p.execute x = runStages [] p.stages x >>= fun q =>
    (p.finish q.1).run q.2 >>= fun w => pure w.2 := by
  unfold execute
  congr 1
  funext q
  obtain ⟨handled, y⟩ := q
  rw [finish, StateT.run_bind]
  exact (bind_assoc ..).symm

/-- What is left follows the stages. -/
lemma run_finished_iff {p : Pipeline} {j : Job (List Stage × Exchange)} :
    Job.Run (j >>= fun q => (p.finish q.1).run q.2 >>= fun w => pure w.2) t z ↔
      ∃ u v handled y, t = u ++ v ∧ Job.Run j u (handled, y) ∧ (p.finish handled).Runs y v () z := by
  rw [Job.run_bind_iff]
  constructor
  · rintro ⟨u, v, ⟨handled, y⟩, rfl, hu, hv⟩
    obtain ⟨v, w, ⟨_, z'⟩, rfl, hv, hw⟩ := Job.run_bind_iff.mp hv
    obtain ⟨rfl, rfl⟩ := Job.run_done_iff.mp hw
    rw [List.append_nil]
    exact ⟨u, v, handled, y, rfl, hu, hv⟩
  · rintro ⟨u, v, handled, y, rfl, hu, hv⟩
    exact ⟨u, v, (handled, y), rfl, hu, Job.run_bind_iff.mpr
      ⟨v, [], ((), z), (List.append_nil v).symm, hv, .done _⟩⟩

/-- A run of a pipeline is a run of its stages and then of what is left. -/
theorem run_execute_iff {p : Pipeline} : Job.Run (p.execute x) t z ↔
    ∃ u v handled y, t = u ++ v ∧ Job.Run (runStages [] p.stages x) u (handled, y) ∧
      (p.finish handled).Runs y v () z := by
  rw [execute_eq, run_finished_iff]

/-- A run in which the first stages proceed goes on with the others. -/
theorem run_execute_iff_of_passes {p : Pipeline} {before after : List Stage} {u : Trace}
    (stages : p.stages = before ++ after) (way : Passes before x t y) :
    Job.Run (p.execute x) (t ++ u) z ↔ ∃ v w handled m, u = v ++ w ∧
      Job.Run (runStages before.reverse after y) v (handled, m) ∧ (p.finish handled).Runs m w () z := by
  have leads := leads_of_passes way [] after
  rw [List.append_nil] at leads
  rw [execute_eq, stages, (leads.bind _).run_iff, run_finished_iff]

end Pipeline

/-- Both exchanges are answered with the same status and the same bytes. -/
def Exchange.SameReply (x y : Exchange) : Prop :=
  y.response.status = x.response.status ∧ y.response.body.bytes = x.response.body.bytes

/-- For every run of the first job on `x` there is one of the second that is told the same and ends
in the same reply. -/
def ExchangeJob.FollowedBy (j k : ExchangeJob Unit) (x : Exchange) : Prop :=
  ∀ t y, j.Runs x t () y → ∃ u z, k.Runs x u () z ∧ u.told = t.told ∧ y.SameReply z

namespace ExchangeJob
variable {j k l : ExchangeJob Unit} {x : Exchange}

lemma FollowedBy.of_eq (h : j.run x = k.run x) : FollowedBy j k x := by
  intro t y hr
  unfold Runs at hr
  rw [h] at hr
  exact ⟨t, y, hr, rfl, rfl, rfl⟩

/-- What is quiet may come after. -/
lemma FollowedBy.bind_quiet (h : FollowedBy j k x) (hl : l.Quiet) :
    FollowedBy (j >>= fun _ => l) (k >>= fun _ => l) x := by
  intro t z hr
  obtain ⟨u, v, _, y, rfl, hu, hv⟩ := runs_bind_iff.mp hr
  obtain ⟨u', y', hu', told, status, bytes⟩ := h u y hu
  obtain ⟨v', _, z', hv'⟩ := exists_runs l y'
  obtain ⟨ez, ev⟩ := hl hv
  obtain ⟨ez', ev'⟩ := hl hv'
  refine ⟨u' ++ v', z', runs_bind_iff.mpr ⟨u', v', (), y', rfl, hu', hv'⟩, ?_, ?_⟩
  · rw [Trace.told_append, Trace.told_append, told, ev, ev']
  · rw [Exchange.SameReply, ez, ez']
    exact ⟨status, bytes⟩

end ExchangeJob

namespace Pipeline
variable {x y z : Exchange} {t : Trace} {i : Interceptor} {before after list : List Interceptor}

lemma alike_buffered (fits : x.response.body.Fits x.limits) (h : ¬x.response.body.IsFull) :
    Exchange.Alike x x.buffered :=
  ⟨rfl, Response.alike_buffer fits h⟩

/-- Reading the response first makes no difference to what the interceptors make of it: one of them
needs it anyway, or none of them sees how it is held and it is read as it is. -/
def ReadsAlike (list : List Interceptor) (x : Exchange) : Prop :=
  (∃ i ∈ list, i.requiresContent = true) ∨
    (∀ i ∈ list, i.handle.Blind) ∧ x.response.body.Fits x.limits ∧ ¬x.response.body.IsFull

/-- Under this condition an idle interceptor more or less is not seen in the reply. -/
theorem meet_followedBy (h : i.Idle) (same : ReadsAlike (before ++ after) x) :
    ExchangeJob.FollowedBy (meet (before ++ after)) (meet (before ++ i :: after)) x ∧
      ExchangeJob.FollowedBy (meet (before ++ i :: after)) (meet (before ++ after)) x := by
  rw [meet_insert_idle h, meet]
  rcases same with ⟨j, hj, needs⟩ | ⟨blind, fits, full⟩
  · rw [if_pos (List.any_eq_true.mpr ⟨j, hj, needs⟩)]
    exact ⟨.of_eq rfl, .of_eq rfl⟩
  · split
    · exact ⟨.of_eq rfl, .of_eq rfl⟩
    · have alike := alike_buffered fits full
      have told (v : Trace) :
          (Trace.releases (Exchange.dropped x x.buffered) ++ v).told = v.told := by
        rw [Trace.told_append, Trace.told_releases, List.nil_append]
      constructor
      · intro t y hr
        obtain ⟨u, z, hu, hz, e⟩ := blind_forM blind alike hr
        exact ⟨_, z, (runs_afterBuffering_iff fits).mpr ⟨u, rfl, hu⟩, (told u).trans e,
          hz.response.status, hz.response.bytes⟩
      · intro t y hr
        obtain ⟨v, rfl, hv⟩ := (runs_afterBuffering_iff fits).mp hr
        obtain ⟨u, z, hu, hz, e⟩ := blind_forM blind alike.symm hv
        exact ⟨u, z, hu, e.trans (told v).symm, hz.response.status, hz.response.bytes⟩

end Pipeline
end Gateway
