import Mathlib.Tactic.Common
import Gateway.Job.Basic

/-! Runs of jobs, taken apart along their programs. -/
namespace Gateway

/-- Effects with the answers they were given, in order. -/
abbrev Trace := List ((e : Effect) × e.Answer)

/-- Every effect can be answered. -/
instance Effect.inhabitedAnswer (e : Effect) : Inhabited e.Answer :=
  match e with
  | .emit _ | .reportFailure _ _ | .reportSuccess _ _ | .release _ | .pause _ => ⟨()⟩
  | .verifyToken _ => ⟨none⟩
  | .issueToken _ => ⟨⟨"", 0⟩⟩
  | .lease _ => ⟨.error .authentication⟩
  | .send _ _ => ⟨.unreachable⟩

namespace Job
variable {α β : Type}

@[simp] lemma run_done_iff {a b : α} {t : Trace} : Run (done a) t b ↔ t = [] ∧ b = a := by
  constructor
  · intro h
    cases h
    exact ⟨rfl, rfl⟩
  · rintro ⟨rfl, rfl⟩
    exact .done _

lemma run_ask_iff {e : Effect} {k : e.Answer → Job α} {t : Trace} {a : α} :
    Run (ask e k) t a ↔ ∃ r u, t = ⟨e, r⟩ :: u ∧ Run (k r) u a := by
  constructor
  · intro h
    cases h with
    | ask r h => exact ⟨r, _, rfl, h⟩
  · rintro ⟨r, u, rfl, h⟩
    exact .ask r h

@[simp] lemma run_perform_iff {e : Effect} {t : Trace} {r : e.Answer} :
    Run (perform e) t r ↔ t = [⟨e, r⟩] := by
  rw [perform, run_ask_iff]
  constructor
  · rintro ⟨q, u, rfl, h⟩
    obtain ⟨rfl, rfl⟩ := run_done_iff.mp h
    rfl
  · rintro rfl
    exact ⟨r, [], rfl, .done r⟩

/-- A sequence runs as its first part and then as its second. -/
theorem run_bind_iff {j : Job α} {f : α → Job β} {t : Trace} {b : β} :
    Run (j >>= f) t b ↔ ∃ u v a, t = u ++ v ∧ Run j u a ∧ Run (f a) v b := by
  induction j generalizing t with
  | done a =>
    rw [done_bind]
    constructor
    · intro h
      exact ⟨[], t, a, rfl, .done a, h⟩
    · rintro ⟨u, v, c, rfl, hu, hv⟩
      obtain ⟨rfl, rfl⟩ := run_done_iff.mp hu
      exact hv
  | ask e k ih =>
    rw [ask_bind, run_ask_iff]
    constructor
    · rintro ⟨r, u, rfl, h⟩
      obtain ⟨v, w, a, rfl, hv, hw⟩ := (ih r).mp h
      exact ⟨⟨e, r⟩ :: v, w, a, rfl, .ask r hv, hw⟩
    · rintro ⟨u, w, a, rfl, hu, hw⟩
      obtain ⟨r, v, rfl, hv⟩ := run_ask_iff.mp hu
      exact ⟨r, v ++ w, rfl, (ih r).mpr ⟨v, w, a, rfl, hv, hw⟩⟩

/-- Jobs come to an end, whatever they are answered. -/
theorem exists_run (j : Job α) : ∃ t a, Run j t a := by
  induction j with
  | done a => exact ⟨[], a, .done a⟩
  | ask e k ih =>
    obtain ⟨t, a, h⟩ := ih default
    exact ⟨_, a, .ask default h⟩

/-- The first answers of a job and what they make of it. The job need not be over. -/
inductive Leads : Job α → Trace → Job α → Prop where
  | refl (j : Job α) : Leads j [] j
  | ask {e : Effect} {k : e.Answer → Job α} {t : Trace} {j : Job α} (r : e.Answer)
      (h : Leads (k r) t j) : Leads (.ask e k) (⟨e, r⟩ :: t) j

lemma Leads.trans {i j k : Job α} {t u : Trace} (h : Leads i t j) (g : Leads j u k) :
    Leads i (t ++ u) k := by
  induction h with
  | refl j => exact g
  | ask r h ih => exact .ask r (ih g)

lemma leads_done_iff {a : α} {t : Trace} {j : Job α} : Leads (done a) t j ↔ t = [] ∧ j = done a := by
  constructor
  · intro h
    cases h
    exact ⟨rfl, rfl⟩
  · rintro ⟨rfl, rfl⟩
    exact .refl _

lemma leads_ask_iff {e : Effect} {k : e.Answer → Job α} {t : Trace} {j : Job α} :
    Leads (ask e k) t j ↔
      (t = [] ∧ j = ask e k) ∨ ∃ r u, t = ⟨e, r⟩ :: u ∧ Leads (k r) u j := by
  constructor
  · intro h
    cases h with
    | refl => exact .inl ⟨rfl, rfl⟩
    | ask r h => exact .inr ⟨r, _, rfl, h⟩
  · rintro (⟨rfl, rfl⟩ | ⟨r, u, rfl, h⟩)
    · exact .refl _
    · exact .ask r h

lemma Leads.run {j k : Job α} {t u : Trace} {a : α} (h : Leads j t k) (g : Run k u a) :
    Run j (t ++ u) a := by
  induction h with
  | refl j => exact g
  | ask r h ih => exact .ask r (ih g)

/-- What a job was led to is what runs on. -/
lemma Leads.run_iff {j k : Job α} {t u : Trace} {a : α} (h : Leads j t k) :
    Run j (t ++ u) a ↔ Run k u a := by
  refine ⟨fun run => ?_, h.run⟩
  induction h with
  | refl j => exact run
  | ask r h ih =>
    obtain ⟨q, v, same, run⟩ := run_ask_iff.mp run
    obtain ⟨first, rfl⟩ := List.cons.inj same
    obtain rfl := eq_of_heq (Sigma.mk.inj first).2
    exact ih run

lemma Leads.bind {j k : Job α} {t : Trace} (h : Leads j t k) (f : α → Job β) :
    Leads (j >>= f) t (k >>= f) := by
  induction h with
  | refl j => exact .refl _
  | ask r h ih => exact .ask r ih

/-- A run of its first part leads a sequence to its second. -/
theorem Run.leads_bind {j : Job α} {t : Trace} {a : α} (h : Run j t a) (f : α → Job β) :
    Leads (j >>= f) t (f a) := by
  induction h with
  | done a => exact .refl _
  | ask r h ih => exact .ask r ih

end Job
end Gateway
