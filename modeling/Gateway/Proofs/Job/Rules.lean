import Gateway.Proofs.Exchange.Edits

/-! Rules that runs obey. A rule relates the exchange a run starts on, the answers it is given and the exchange
it leaves. A rule that composes is obeyed by a job if the parts of the job obey it. -/
namespace Gateway

/-- What is written about a request when it is over: a measurement and a line of the log. -/
def Event.isEntry : Event → Bool
  | .handled _ => true
  | .metric (.handled _ _) => true
  | _ => false

/-- The entry about a request that an effect makes. -/
def Effect.event? : Effect → Option Event
  | .emit event => if event.isEntry then some event else none
  | _ => none

/-- All entries about requests, in order. -/
def Trace.entries (t : Trace) : List Event := t.filterMap (·.1.event?)

@[simp] lemma Trace.entries_append (t u : Trace) : (t ++ u).entries = t.entries ++ u.entries :=
  List.filterMap_append ..

@[simp] lemma Trace.entries_releases (guards : List Guard) : (Trace.releases guards).entries = [] := by
  induction guards with
  | nil => rfl
  | cons g rest ih => exact ih

abbrev Rule := Exchange → Trace → Exchange → Prop

namespace Rule

/-- To do nothing obeys the rule, and so does one run after another. -/
structure Composes (R : Rule) : Prop where
  nothing : ∀ x, R x [] x
  followed : ∀ {x y z t u}, R x t y → R y u z → R x (t ++ u) z

/-- The rule lets runs edit exchanges and do everything but write about requests. -/
structure Admits (R : Rule) : Prop extends R.Composes where
  edit : ∀ {x y}, x.Edits y → R x (Trace.releases (Exchange.dropped x y)) y
  effect : ∀ x (e : Effect) (r : e.Answer), e.event? = none → R x [⟨e, r⟩] x

/-- The rule lets runs replace what they have by a failure. -/
def Fails (R : Rule) : Prop :=
  ∀ (x : Exchange) f, R x (Trace.releases (Exchange.dropped x (x.fail f))) (x.fail f)

/-- To leave what `f` shows. -/
def keeping {γ : Type} (f : Exchange → γ) : Rule := fun x _ y => f y = f x

/-- To leave a property to exchanges that have it. -/
def retaining (P : Exchange → Prop) : Rule := fun x _ y => P x → P y

/-- To write nothing about requests. -/
def silent : Rule := fun _ t _ => t.entries = []

/-- To do with exchanges what they offer. -/
def offered : Rule := fun x _ y => Relation.ReflTransGen Exchange.Offers x y

lemma composes_keeping {γ : Type} (f : Exchange → γ) : (keeping f).Composes where
  nothing _ := rfl
  followed hu hv := hv.trans hu

lemma admits_keeping {γ : Type} {f : Exchange → γ} (h : ∀ {x y : Exchange}, x.Edits y → f y = f x) :
    (keeping f).Admits where
  toComposes := composes_keeping f
  edit := h
  effect _ _ _ _ := rfl

lemma admits_retaining {P : Exchange → Prop} (h : ∀ {x y : Exchange}, x.Edits y → P x → P y) :
    (retaining P).Admits where
  nothing _ := id
  followed hu hv := hv ∘ hu
  edit := h
  effect _ _ _ _ := id

lemma admits_silent : silent.Admits where
  nothing _ := rfl
  followed hu hv := by
    rw [silent, Trace.entries_append, hu, hv]
    rfl
  edit _ := Trace.entries_releases _
  effect _ e r none := by simp [silent, Trace.entries, none]

lemma fails_silent : silent.Fails := fun _ _ => Trace.entries_releases _

lemma admits_offered : offered.Admits where
  nothing _ := .refl
  followed hu hv := hu.trans hv
  edit h := .single (.edit h)
  effect _ _ _ _ := .refl

/-- What is kept by everything that an exchange offers is kept by those who do not go beyond it. -/
lemma retaining_of_offered {P : Exchange → Prop} (h : ∀ {x y : Exchange}, x.Offers y → P x → P y)
    {x y : Exchange} {t : Trace} (run : offered x t y) : retaining P x t y := by
  intro start
  induction run with
  | refl => exact start
  | tail _ step ih => exact h step ih

end Rule

/-- The job works without the exchange, and what it does obeys the rule. -/
def Job.Obeys {α : Type} (R : Rule) (j : Job α) : Prop := ∀ x t a, Run j t a → R x t x

namespace Job
variable {R : Rule}

lemma obeys_perform (hR : R.Admits) {e : Effect} (other : e.event? = none) : (perform e).Obeys R := by
  intro x t r run
  obtain rfl := run_perform_iff.mp run
  exact hR.effect x e r other

lemma obeys_emit (hR : R.Admits) {event : Event} (other : event.isEntry = false) :
    (emit event).Obeys R :=
  obeys_perform hR (by simp [Effect.event?, other])

end Job

namespace ExchangeJob
variable {α β γ : Type} {R S : Rule}

/-- All runs obey the rule. -/
def Obeys (R : Rule) (j : ExchangeJob α) : Prop := ∀ ⦃x t a y⦄, j.Runs x t a y → R x t y

namespace Obeys

lemma mono {j : ExchangeJob α} (h : j.Obeys R) (hS : ∀ {x t y}, R x t y → S x t y) : j.Obeys S :=
  fun _ _ _ _ run => hS (h run)

lemma pure (hR : R.Composes) (a : α) : Obeys R (pure a) := by
  intro x t b y h
  obtain ⟨rfl, -, rfl⟩ := runs_pure_iff.mp h
  exact hR.nothing _

lemma get (hR : R.Composes) : Obeys R get := by
  intro x t a y h
  obtain ⟨rfl, -, rfl⟩ := runs_get_iff.mp h
  exact hR.nothing _

lemma bind (hR : R.Composes) {j : ExchangeJob α} {k : α → ExchangeJob β} (hj : Obeys R j)
    (hk : ∀ a, Obeys R (k a)) : Obeys R (j >>= k) := by
  intro x t b z h
  obtain ⟨u, v, a, y, rfl, hu, hv⟩ := runs_bind_iff.mp h
  exact hR.followed (hj hu) (hk a hv)

lemma lift {j : Job α} (h : j.Obeys R) : Obeys R (liftM j : ExchangeJob α) := by
  intro x t a y run
  obtain ⟨hj, rfl⟩ := runs_lift_iff.mp run
  exact h _ _ _ hj

lemma change {f : Exchange → Exchange}
    (h : ∀ x, R x (Trace.releases (Exchange.dropped x (f x))) (f x)) : Obeys R (Exchange.change f) := by
  intro x t u y run
  obtain ⟨rfl, rfl⟩ := runs_change_iff.mp run
  exact h x

lemma forM (hR : R.Composes) {f : γ → ExchangeJob Unit} {list : List γ}
    (h : ∀ c ∈ list, Obeys R (f c)) : Obeys R (list.forM f) := by
  induction list with
  | nil => exact pure hR ()
  | cons c rest ih =>
    exact bind hR (h c List.mem_cons_self) fun _ => ih fun d hd => h d (List.mem_cons_of_mem _ hd)

end Obeys
end ExchangeJob

namespace Handler
variable {α β : Type} {R S : Rule}

/-- All runs obey the rule, failed or not. -/
def Obeys (R : Rule) (h : Handler α) : Prop := ExchangeJob.Obeys R (ExceptT.run h)

namespace Obeys

lemma runs {h : Handler α} (hh : Obeys R h) {x y : Exchange} {t : Trace} {r : Except Failure α}
    (run : h.Runs x t r y) : R x t y := hh run

lemma mono {h : Handler α} (hh : Obeys R h) (hS : ∀ {x t y}, R x t y → S x t y) : Obeys S h :=
  ExchangeJob.Obeys.mono hh hS

lemma pure (hR : R.Composes) (a : α) : Obeys R (pure a : Handler α) := ExchangeJob.Obeys.pure hR _

lemma throw (hR : R.Composes) (e : Failure) : Obeys R (throw e : Handler α) :=
  ExchangeJob.Obeys.pure hR _

lemma bind (hR : R.Composes) {h : Handler α} {k : α → Handler β} (hh : Obeys R h)
    (hk : ∀ a, Obeys R (k a)) : Obeys R (h >>= k) := by
  intro x t r z run
  rcases runs_bind_iff.mp run with ⟨u, v, a, y, rfl, hu, hv⟩ | ⟨e, -, he⟩
  · exact hR.followed (hh hu) (hk a hv)
  · exact hh he

/-- What follows a look at the exchange may go by what was seen. -/
lemma view_bind {k : Exchange → Handler β}
    (hk : ∀ ⦃x t r y⦄, (k x).Runs x t r y → R x t y) : Obeys R (view >>= k) :=
  fun _ _ _ _ run => hk (runs_view_bind_iff.mp run)

lemma view (hR : R.Composes) : Obeys R Handler.view := by
  intro x t r y run
  obtain ⟨rfl, -, rfl⟩ := runs_view_iff.mp run
  exact hR.nothing _

lemma exchange {j : ExchangeJob α} (h : ExchangeJob.Obeys R j) : Obeys R (liftM j : Handler α) := by
  intro x t r y run
  obtain ⟨a, -, run⟩ := runs_exchange_iff.mp run
  exact h run

lemma job {j : Job α} (h : j.Obeys R) : Obeys R (liftM j : Handler α) := exchange (.lift h)

lemma perform (hR : R.Admits) {e : Effect} (other : e.event? = none) : Obeys R (Handler.perform e) :=
  job (Job.obeys_perform hR other)

lemma edit (hR : R.Admits) {f : Exchange → Exchange} (h : ∀ x : Exchange, x.Edits (f x)) :
    Obeys R (Handler.change f) :=
  exchange (.change fun x => hR.edit (h x))

lemma attempt {f : Exchange → Exchange × Except Failure Unit}
    (h : ∀ x, R x (Trace.releases (Exchange.dropped x (f x).1)) (f x).1) :
    Obeys R (Exchange.attempt f) := by
  intro x t r y run
  obtain ⟨-, rfl, rfl⟩ := runs_attempt_iff.mp run
  exact h x

lemma tryCatch (hR : R.Composes) {h : Handler α} {k : Failure → Handler α} (hh : Obeys R h)
    (hk : ∀ e, Obeys R (k e)) : Obeys R (tryCatch h k) := by
  intro x t r z run
  rcases runs_tryCatch_iff.mp run with ⟨a, -, ha⟩ | ⟨u, v, e, y, rfl, hu, hv⟩
  · exact hh ha
  · exact hR.followed (hh hu) (hk e hv)

end Obeys
end Handler
end Gateway
