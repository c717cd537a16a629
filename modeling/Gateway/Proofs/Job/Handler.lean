import Gateway.Job.Handler
import Gateway.Proofs.Job.Run

/-! Runs of handlers. A run starts on an exchange and leaves one; what it leaves as it was is
stated by a property of the exchange that all runs maintain. -/
namespace Gateway

/-- Resources given back, in order. -/
def Trace.releases (guards : List Guard) : Trace := guards.map fun g => ⟨.release g, ()⟩

namespace Exchange

/-- A change that leaves the response gives nothing back. -/
lemma dropped_eq_nil {x y : Exchange} (h : y.response = x.response) : dropped x y = [] := by
  simp [dropped, h]

lemma run_releaseAll_iff {guards : List Guard} {t : Trace} {u : Unit} :
    Job.Run (releaseAll guards) t u ↔ t = Trace.releases guards := by
  induction guards generalizing t with
  | nil => simp [releaseAll, Trace.releases]
  | cons g rest ih =>
    change Job.Run (.ask (.release g) fun _ => releaseAll rest) t u ↔ _
    rw [Job.run_ask_iff]
    constructor
    · rintro ⟨r, v, rfl, h⟩
      rw [ih.mp h]
      rfl
    · rintro rfl
      exact ⟨(), Trace.releases rest, rfl, ih.mpr rfl⟩

end Exchange

namespace ExchangeJob
variable {α β γ : Type}

/-- With the answers `t`, the job makes `a` of the exchange `x` and leaves `y`. -/
def Runs (j : ExchangeJob α) (x : Exchange) (t : Trace) (a : α) (y : Exchange) : Prop :=
  Job.Run (j.run x) t (a, y)

/-- Runs that start on exchanges with the property leave exchanges with it. -/
def Maintains (P : Exchange → Prop) (j : ExchangeJob α) : Prop :=
  ∀ ⦃x t a y⦄, P x → j.Runs x t a y → P y

/-- No run changes what `f` shows of the exchange. -/
def Keeps (f : Exchange → γ) (j : ExchangeJob α) : Prop := ∀ c, j.Maintains fun x => f x = c

lemma exists_runs (j : ExchangeJob α) (x : Exchange) : ∃ t a y, j.Runs x t a y := by
  obtain ⟨t, ⟨a, y⟩, h⟩ := (j.run x).exists_run
  exact ⟨t, a, y, h⟩

variable {x y z : Exchange} {t : Trace}

@[simp] lemma runs_pure_iff {a b : α} :
    Runs (pure a) x t b y ↔ t = [] ∧ b = a ∧ y = x := by
  change Job.Run (.done (a, x)) t (b, y) ↔ _
  rw [Job.run_done_iff, Prod.mk.injEq]

theorem runs_bind_iff {j : ExchangeJob α} {f : α → ExchangeJob β} {b : β} :
    Runs (j >>= f) x t b z ↔ ∃ u v a y, t = u ++ v ∧ j.Runs x u a y ∧ (f a).Runs y v b z := by
  change Job.Run (j.run x >>= fun p => (f p.1).run p.2) t (b, z) ↔ _
  rw [Job.run_bind_iff]
  constructor
  · rintro ⟨u, v, ⟨a, y⟩, rfl, hu, hv⟩
    exact ⟨u, v, a, y, rfl, hu, hv⟩
  · rintro ⟨u, v, a, y, rfl, hu, hv⟩
    exact ⟨u, v, (a, y), rfl, hu, hv⟩

@[simp] lemma runs_get_iff {a : Exchange} : Runs get x t a y ↔ t = [] ∧ a = x ∧ y = x := by
  change Job.Run (.done (x, x)) t (a, y) ↔ _
  rw [Job.run_done_iff, Prod.mk.injEq]

lemma runs_lift_iff {j : Job α} {a : α} :
    Runs (liftM j) x t a y ↔ Job.Run j t a ∧ y = x := by
  change Job.Run (j >>= fun a => .done (a, x)) t (a, y) ↔ _
  rw [Job.run_bind_iff]
  constructor
  · rintro ⟨u, v, b, rfl, hu, hv⟩
    obtain ⟨rfl, e⟩ := Job.run_done_iff.mp hv
    obtain ⟨rfl, rfl⟩ := Prod.mk.inj e
    rw [List.append_nil]
    exact ⟨hu, rfl⟩
  · rintro ⟨h, rfl⟩
    exact ⟨t, [], a, (List.append_nil t).symm, h, .done _⟩

lemma runs_change_iff {f : Exchange → Exchange} {u : Unit} :
    Runs (Exchange.change f) x t u y ↔
      t = Trace.releases (Exchange.dropped x (f x)) ∧ y = f x := by
  change Job.Run (Exchange.releaseAll _ >>= fun _ => .done ((), f x)) t (u, y) ↔ _
  rw [Job.run_bind_iff]
  constructor
  · rintro ⟨v, w, _, rfl, hv, hw⟩
    obtain ⟨rfl, e⟩ := Job.run_done_iff.mp hw
    rw [List.append_nil]
    exact ⟨Exchange.run_releaseAll_iff.mp hv, congrArg Prod.snd e⟩
  · rintro ⟨rfl, rfl⟩
    exact ⟨_, [], (), (List.append_nil _).symm, Exchange.run_releaseAll_iff.mpr rfl, .done _⟩

namespace Maintains
variable {P : Exchange → Prop}

lemma pure (a : α) : Maintains P (pure a) := by
  intro x t b y hx h
  rwa [(runs_pure_iff.mp h).2.2]

lemma get : Maintains P get := by
  intro x t a y hx h
  rwa [(runs_get_iff.mp h).2.2]

lemma bind {j : ExchangeJob α} {k : α → ExchangeJob β} (hj : Maintains P j)
    (hk : ∀ a, Maintains P (k a)) : Maintains P (j >>= k) := by
  intro x t b z hx h
  obtain ⟨u, v, a, y, -, hu, hv⟩ := runs_bind_iff.mp h
  exact hk a (hj hx hu) hv

lemma lift (j : Job α) : Maintains P (liftM j : ExchangeJob α) := by
  intro x t a y hx h
  rwa [(runs_lift_iff.mp h).2]

lemma change {g : Exchange → Exchange} (h : ∀ x, P x → P (g x)) :
    Maintains P (Exchange.change g) := by
  intro x t u y hx hr
  rw [(runs_change_iff.mp hr).2]
  exact h x hx

end Maintains

/-- What is kept decides properties that are maintained. -/
lemma Keeps.maintains {f : Exchange → γ} {j : ExchangeJob α} (h : Keeps f j) (Q : γ → Prop) :
    Maintains (fun x => Q (f x)) j := by
  intro x t a y hx hr
  rw [h (f x) rfl hr]
  exact hx

end ExchangeJob

namespace Handler
variable {α β γ : Type}

/-- With the answers `t`, the handler ends in `r` on the exchange `x` and leaves `y`. -/
def Runs (h : Handler α) (x : Exchange) (t : Trace) (r : Except Failure α) (y : Exchange) : Prop :=
  ExchangeJob.Runs (ExceptT.run h) x t r y

/-- Runs that start on exchanges with the property leave exchanges with it, failed or not. -/
def Maintains (P : Exchange → Prop) (h : Handler α) : Prop :=
  ExchangeJob.Maintains P (ExceptT.run h)

/-- No run, failed or not, changes what `f` shows of the exchange. -/
def Keeps (f : Exchange → γ) (h : Handler α) : Prop := ∀ c, h.Maintains fun x => f x = c

variable {x y z : Exchange} {t : Trace}

@[simp] lemma runs_pure_iff {a : α} {r : Except Failure α} :
    Runs (pure a) x t r y ↔ t = [] ∧ r = .ok a ∧ y = x :=
  ExchangeJob.runs_pure_iff

@[simp] lemma runs_throw_iff {e : Failure} {r : Except Failure α} :
    Runs (throw e) x t r y ↔ t = [] ∧ r = .error e ∧ y = x :=
  ExchangeJob.runs_pure_iff

@[simp] lemma runs_view_iff {r : Except Failure Exchange} :
    Runs view x t r y ↔ t = [] ∧ r = .ok x ∧ y = x := by
  change Job.Run (.done (.ok x, x)) t (r, y) ↔ _
  rw [Job.run_done_iff, Prod.mk.injEq]

/-- What follows the first part of a sequence, by its outcome. -/
private def follow (k : α → Handler β) : Except Failure α → ExchangeJob (Except Failure β)
  | .ok a => ExceptT.run (k a)
  | .error e => pure (.error e)

private lemma bind_eq (h : Handler α) (k : α → Handler β) :
    ExceptT.run (h >>= k) = ExceptT.run h >>= follow k := by
  change ExceptT.run h >>= _ = _
  congr 1
  funext r
  cases r <;> rfl

/-- A sequence fails with its first part or goes on with its second. -/
theorem runs_bind_iff {h : Handler α} {k : α → Handler β} {r : Except Failure β} :
    Runs (h >>= k) x t r z ↔
      (∃ u v a y, t = u ++ v ∧ h.Runs x u (.ok a) y ∧ (k a).Runs y v r z) ∨
        ∃ e, r = .error e ∧ h.Runs x t (.error e) z := by
  unfold Runs
  rw [bind_eq, ExchangeJob.runs_bind_iff]
  constructor
  · rintro ⟨u, v, q, y, rfl, hu, hv⟩
    cases q with
    | ok a => exact .inl ⟨u, v, a, y, rfl, hu, hv⟩
    | error e =>
      obtain ⟨rfl, rfl, rfl⟩ := ExchangeJob.runs_pure_iff.mp hv
      rw [List.append_nil]
      exact .inr ⟨e, rfl, hu⟩
  · rintro (⟨u, v, a, y, rfl, hu, hv⟩ | ⟨e, rfl, hu⟩)
    · exact ⟨u, v, .ok a, y, rfl, hu, hv⟩
    · exact ⟨t, [], .error e, z, (List.append_nil t).symm, hu,
        ExchangeJob.runs_pure_iff.mpr ⟨rfl, rfl, rfl⟩⟩

/-- A sequence that succeeds went through both parts. -/
lemma runs_bind_ok {h : Handler α} {k : α → Handler β} {b : β}
    (hr : Runs (h >>= k) x t (.ok b) z) :
    ∃ u v a y, t = u ++ v ∧ h.Runs x u (.ok a) y ∧ (k a).Runs y v (.ok b) z := by
  rcases runs_bind_iff.mp hr with h | ⟨e, he, -⟩
  · exact h
  · cases he

/-- What follows a look at the exchange knows what was seen. -/
lemma runs_view_bind_iff {k : Exchange → Handler β} {r : Except Failure β} :
    Runs (view >>= k) x t r z ↔ (k x).Runs x t r z := by
  rw [runs_bind_iff]
  constructor
  · rintro (⟨u, v, a, y, rfl, hu, hv⟩ | ⟨e, -, he⟩)
    · obtain ⟨rfl, same, rfl⟩ := runs_view_iff.mp hu
      obtain rfl := Except.ok.inj same
      exact hv
    · cases (runs_view_iff.mp he).2.1
  · intro h
    exact .inl ⟨[], t, x, x, rfl, runs_view_iff.mpr ⟨rfl, rfl, rfl⟩, h⟩

lemma runs_exchange_iff {j : ExchangeJob α} {r : Except Failure α} :
    Runs (liftM j) x t r y ↔ ∃ a, r = .ok a ∧ j.Runs x t a y := by
  change ExchangeJob.Runs (j >>= fun a => pure (.ok a)) x t r y ↔ _
  rw [ExchangeJob.runs_bind_iff]
  constructor
  · rintro ⟨u, v, a, z, rfl, hu, hv⟩
    obtain ⟨rfl, rfl, rfl⟩ := ExchangeJob.runs_pure_iff.mp hv
    rw [List.append_nil]
    exact ⟨a, rfl, hu⟩
  · rintro ⟨a, rfl, h⟩
    exact ⟨t, [], a, y, (List.append_nil t).symm, h, ExchangeJob.runs_pure_iff.mpr ⟨rfl, rfl, rfl⟩⟩

lemma runs_job_iff {j : Job α} {r : Except Failure α} :
    Runs (liftM j) x t r y ↔ ∃ a, r = .ok a ∧ Job.Run j t a ∧ y = x := by
  change Runs (liftM (liftM j : ExchangeJob α)) x t r y ↔ _
  simp only [runs_exchange_iff, ExchangeJob.runs_lift_iff]

lemma runs_change_iff {f : Exchange → Exchange} {r : Except Failure Unit} :
    Runs (change f) x t r y ↔
      r = .ok () ∧ t = Trace.releases (Exchange.dropped x (f x)) ∧ y = f x := by
  simp only [change, runs_exchange_iff, ExchangeJob.runs_change_iff]
  constructor
  · rintro ⟨u, rfl, rfl, rfl⟩
    exact ⟨rfl, rfl, rfl⟩
  · rintro ⟨rfl, rfl, rfl⟩
    exact ⟨(), rfl, rfl, rfl⟩

lemma runs_attempt_iff {f : Exchange → Exchange × Except Failure Unit} {r : Except Failure Unit} :
    Runs (Exchange.attempt f) x t r y ↔
      r = (f x).2 ∧ t = Trace.releases (Exchange.dropped x (f x).1) ∧ y = (f x).1 := by
  change Job.Run (Exchange.releaseAll _ >>= fun _ => .done ((f x).2, (f x).1)) t (r, y) ↔ _
  rw [Job.run_bind_iff]
  constructor
  · rintro ⟨v, w, _, rfl, hv, hw⟩
    obtain ⟨rfl, e⟩ := Job.run_done_iff.mp hw
    obtain ⟨rfl, rfl⟩ := Prod.mk.inj e
    rw [List.append_nil]
    exact ⟨rfl, Exchange.run_releaseAll_iff.mp hv, rfl⟩
  · rintro ⟨rfl, rfl, rfl⟩
    exact ⟨_, [], (), (List.append_nil _).symm, Exchange.run_releaseAll_iff.mpr rfl, .done _⟩

/-- What becomes of a handler whose failures are caught. -/
private def resume (k : Failure → Handler α) : Except Failure α → ExchangeJob (Except Failure α)
  | .ok a => pure (.ok a)
  | .error e => ExceptT.run (k e)

private lemma tryCatch_eq (h : Handler α) (k : Failure → Handler α) :
    ExceptT.run (tryCatch h k) = ExceptT.run h >>= resume k := by
  funext x
  change (ExceptT.run h x >>= fun p => _) = (ExceptT.run h x >>= fun p => _)
  congr 1
  funext p
  obtain ⟨r, y⟩ := p
  cases r <;> rfl

theorem runs_tryCatch_iff {h : Handler α} {k : Failure → Handler α} {r : Except Failure α} :
    Runs (tryCatch h k) x t r z ↔
      (∃ a, r = .ok a ∧ h.Runs x t (.ok a) z) ∨
        ∃ u v e y, t = u ++ v ∧ h.Runs x u (.error e) y ∧ (k e).Runs y v r z := by
  unfold Runs
  rw [tryCatch_eq, ExchangeJob.runs_bind_iff]
  constructor
  · rintro ⟨u, v, q, y, rfl, hu, hv⟩
    cases q with
    | ok a =>
      obtain ⟨rfl, rfl, rfl⟩ := ExchangeJob.runs_pure_iff.mp hv
      rw [List.append_nil]
      exact .inl ⟨a, rfl, hu⟩
    | error e => exact .inr ⟨u, v, e, y, rfl, hu, hv⟩
  · rintro (⟨a, rfl, hu⟩ | ⟨u, v, e, y, rfl, hu, hv⟩)
    · exact ⟨t, [], .ok a, z, (List.append_nil t).symm, hu,
        ExchangeJob.runs_pure_iff.mpr ⟨rfl, rfl, rfl⟩⟩
    · exact ⟨u, v, .error e, y, rfl, hu, hv⟩

namespace Maintains
variable {P : Exchange → Prop}

lemma pure (a : α) : Maintains P (pure a : Handler α) := ExchangeJob.Maintains.pure _

lemma throw (e : Failure) : Maintains P (throw e : Handler α) := ExchangeJob.Maintains.pure _

lemma view : Maintains P Handler.view := by
  intro x t r y hx h
  rwa [(runs_view_iff.mp h).2.2]

lemma bind {h : Handler α} {k : α → Handler β} (hh : Maintains P h)
    (hk : ∀ a, Maintains P (k a)) : Maintains P (h >>= k) := by
  intro x t r z hx hr
  rcases runs_bind_iff.mp hr with ⟨u, v, a, y, -, hu, hv⟩ | ⟨e, -, he⟩
  · exact hk a (hh hx hu) hv
  · exact hh hx he

lemma exchange {j : ExchangeJob α} (h : ExchangeJob.Maintains P j) :
    Maintains P (liftM j : Handler α) := by
  intro x t r y hx hr
  obtain ⟨a, -, ha⟩ := runs_exchange_iff.mp hr
  exact h hx ha

lemma job (j : Job α) : Maintains P (liftM j : Handler α) := exchange (.lift j)

lemma change {g : Exchange → Exchange} (h : ∀ x, P x → P (g x)) :
    Maintains P (Handler.change g) := exchange (.change h)

lemma attempt {g : Exchange → Exchange × Except Failure Unit} (h : ∀ x, P x → P (g x).1) :
    Maintains P (Exchange.attempt g) := by
  intro x t r y hx hr
  rw [(runs_attempt_iff.mp hr).2.2]
  exact h x hx

lemma tryCatch {h : Handler α} {k : Failure → Handler α} (hh : Maintains P h)
    (hk : ∀ e, Maintains P (k e)) : Maintains P (tryCatch h k) := by
  intro x t r z hx hr
  rcases runs_tryCatch_iff.mp hr with ⟨a, -, ha⟩ | ⟨u, v, e, y, -, hu, hv⟩
  · exact hh hx ha
  · exact hk e (hh hx hu) hv

end Maintains

/-- What is kept decides properties that are maintained. -/
lemma Keeps.maintains {f : Exchange → γ} {h : Handler α} (hk : Keeps f h) (Q : γ → Prop) :
    Maintains (fun x => Q (f x)) h :=
  ExchangeJob.Keeps.maintains hk Q

end Handler
end Gateway
