import Gateway.Proofs.Job.Handler

/-! What jobs and handlers come to ask for. A sequence asks for what its first part asks for and, once
that part has run, for what its second part asks for. -/
namespace Gateway

namespace Job
variable {α β : Type} {t : Trace} {e f : Effect}

/-- With the answers `t`, the job comes to ask for the effect. -/
def Asks (j : Job α) (t : Trace) (e : Effect) : Prop := ∃ k, Leads j t (.ask e k)

lemma not_asks_done {a : α} : ¬Asks (done a) t e := by
  rintro ⟨k, h⟩
  cases (leads_done_iff.mp h).2

lemma asks_ask_iff {k : e.Answer → Job α} :
    Asks (ask e k) t f ↔ (t = [] ∧ f = e) ∨ ∃ r u, t = ⟨e, r⟩ :: u ∧ Asks (k r) u f := by
  constructor
  · rintro ⟨c, h⟩
    rcases leads_ask_iff.mp h with ⟨rfl, same⟩ | ⟨r, u, rfl, tail⟩
    · injection same with same
      exact .inl ⟨rfl, same⟩
    · exact .inr ⟨r, u, rfl, c, tail⟩
  · rintro (⟨rfl, rfl⟩ | ⟨r, u, rfl, c, h⟩)
    · exact ⟨k, .refl _⟩
    · exact ⟨c, .ask r h⟩

/-- A sequence asks in its first part, or in its second part when the first has run. -/
theorem asks_bind_iff {j : Job α} {k : α → Job β} :
    Asks (j >>= k) t e ↔
      Asks j t e ∨ ∃ u v a, t = u ++ v ∧ Run j u a ∧ Asks (k a) v e := by
  induction j generalizing t with
  | done a =>
    rw [done_bind]
    constructor
    · intro h
      exact .inr ⟨[], t, a, rfl, .done a, h⟩
    · rintro (h | ⟨u, v, b, rfl, hu, hv⟩)
      · exact absurd h not_asks_done
      · obtain ⟨rfl, rfl⟩ := run_done_iff.mp hu
        exact hv
  | ask f c ih =>
    rw [ask_bind, asks_ask_iff, asks_ask_iff]
    constructor
    · rintro (h | ⟨r, u, rfl, h⟩)
      · exact .inl (.inl h)
      · rcases (ih r).mp h with h | ⟨v, w, a, rfl, hv, hw⟩
        · exact .inl (.inr ⟨r, u, rfl, h⟩)
        · exact .inr ⟨⟨f, r⟩ :: v, w, a, rfl, .ask r hv, hw⟩
    · rintro ((h | ⟨r, u, rfl, h⟩) | ⟨u, w, a, rfl, hu, hw⟩)
      · exact .inl h
      · exact .inr ⟨r, u, rfl, (ih r).mpr (.inl h)⟩
      · obtain ⟨r, v, rfl, hv⟩ := run_ask_iff.mp hu
        exact .inr ⟨r, v ++ w, rfl, (ih r).mpr (.inr ⟨v, w, a, rfl, hv, hw⟩)⟩

lemma Leads.asks {j k : Job α} {u : Trace} (h : Leads j t k) (g : Asks k u e) :
    Asks j (t ++ u) e := by
  obtain ⟨c, g⟩ := g
  exact ⟨c, h.trans g⟩

end Job

namespace Exchange
variable {guards : List Guard} {t : Trace} {e : Effect}

lemma asks_releaseAll (h : Job.Asks (releaseAll guards) t e) : ∃ g, e = .release g := by
  induction guards generalizing t with
  | nil => exact absurd h Job.not_asks_done
  | cons g rest ih =>
    change Job.Asks (.ask (.release g) fun _ => releaseAll rest) t e at h
    rcases Job.asks_ask_iff.mp h with ⟨-, rfl⟩ | ⟨r, u, -, h⟩
    · exact ⟨g, rfl⟩
    · exact ih h

end Exchange

namespace Handler
variable {α β : Type} {x y z : Exchange} {t : Trace} {e f : Effect}

/-- With the answers `t`, the handler comes from the exchange `x` to ask for the effect. -/
def Asks (h : Handler α) (x : Exchange) (t : Trace) (e : Effect) : Prop := Job.Asks (h.run x) t e

lemma not_asks_pure {a : α} : ¬Asks (pure a) x t e := Job.not_asks_done

lemma not_asks_throw {f : Failure} : ¬Asks (throw f : Handler α) x t e := Job.not_asks_done

lemma asks_view_bind_iff {k : Exchange → Handler β} :
    Asks (view >>= k) x t e ↔ (k x).Asks x t e := Iff.rfl

/-- A handler that asks right away goes on with the answer. -/
lemma asks_perform_bind_iff {k : f.Answer → Handler β} :
    Asks (perform f >>= k) x t e ↔
      (t = [] ∧ e = f) ∨ ∃ r u, t = ⟨f, r⟩ :: u ∧ (k r).Asks x u e := by
  change Job.Asks (.ask f fun r => (k r).run x) t e ↔ _
  exact Job.asks_ask_iff

lemma run_perform_bind (e : Effect) (k : e.Answer → Handler β) (x : Exchange) :
    (perform e >>= k).run x = Job.ask e fun answer => (k answer).run x := rfl

/-- A handler that performs an effect goes on with the answer. -/
lemma runs_perform_bind_iff {e : Effect} {k : e.Answer → Handler β} {r : Except Failure β} :
    Runs (perform e >>= k) x t r z ↔ ∃ answer u, t = ⟨e, answer⟩ :: u ∧ (k answer).Runs x u r z := by
  change Job.Run (.ask e fun answer => (k answer).run x) t (r, z) ↔ _
  exact Job.run_ask_iff

lemma run_view_bind (k : Exchange → Handler β) (x : Exchange) : (view >>= k).run x = (k x).run x := rfl

/-- What a change drops is given back before the handler goes on. -/
lemma run_change_bind (g : Exchange → Exchange) (k : Unit → Handler β) (x : Exchange) :
    (change g >>= k).run x =
      Exchange.releaseAll (Exchange.dropped x (g x)) >>= fun _ => (k ()).run (g x) := by
  change ((Exchange.releaseAll (Exchange.dropped x (g x)) >>= fun _ => Job.done ((), g x)) >>=
    fun _ => _) >>= _ = _
  rw [bind_assoc, bind_assoc]
  rfl

lemma runs_change_bind_iff {g : Exchange → Exchange} {k : Unit → Handler β} {r : Except Failure β} :
    Runs (change g >>= k) x t r z ↔
      ∃ u, t = Trace.releases (Exchange.dropped x (g x)) ++ u ∧ (k ()).Runs (g x) u r z := by
  rw [runs_bind_iff]
  constructor
  · rintro (⟨u, v, _, y, rfl, hu, hv⟩ | ⟨e, -, he⟩)
    · obtain ⟨-, rfl, rfl⟩ := runs_change_iff.mp hu
      exact ⟨v, rfl, hv⟩
    · cases (runs_change_iff.mp he).1
  · rintro ⟨u, rfl, h⟩
    exact .inl ⟨_, u, (), g x, rfl, runs_change_iff.mpr ⟨rfl, rfl, rfl⟩, h⟩

lemma asks_change_bind_iff {g : Exchange → Exchange} {k : Unit → Handler β}
    (he : ∀ guard, e ≠ .release guard) : Asks (change g >>= k) x t e ↔
      ∃ u, t = Trace.releases (Exchange.dropped x (g x)) ++ u ∧ (k ()).Asks (g x) u e := by
  unfold Asks
  rw [run_change_bind, Job.asks_bind_iff]
  constructor
  · rintro (h | ⟨u, v, _, rfl, hu, hv⟩)
    · obtain ⟨guard, rfl⟩ := Exchange.asks_releaseAll h
      exact absurd rfl (he guard)
    · obtain rfl := Exchange.run_releaseAll_iff.mp hu
      exact ⟨v, rfl, hv⟩
  · rintro ⟨u, rfl, h⟩
    exact .inr ⟨_, u, (), rfl, Exchange.run_releaseAll_iff.mpr rfl, h⟩

end Handler
end Gateway
