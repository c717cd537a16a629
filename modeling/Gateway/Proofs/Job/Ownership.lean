import Mathlib.Data.List.Nodup
import Gateway.Proofs.Job.Handler

/-! What a job holds on its way. It may give back only what it holds, and when it is done, all that it
still holds lives on in its result. -/
namespace Gateway

/-- What lives as long as the response of the exchange. -/
def Exchange.guards (x : Exchange) : List Guard := x.response.body.guards

namespace Effect

/-- What is held after an effect has been answered. -/
def held (before : List Guard) : (e : Effect) → e.Answer → List Guard
  | .lease pool, .ok l => .lease pool l.ticket :: before
  | .release g, _ => before.filter (· ≠ g)
  | _, _ => before

/-- Only what is held can be given back. -/
def Permitted (before : List Guard) : Effect → Prop
  | .release g => g ∈ before
  | _ => True

/-- Leases are new, and what comes from a backend holds nothing. -/
def Fitting (before : List Guard) : (e : Effect) → e.Answer → Prop
  | .lease pool, .ok l => .lease pool l.ticket ∉ before
  | .send _ _, .answered _ _ body => body.guards = []
  | _, _ => True

variable {before other : List Guard} {e : Effect} {r : e.Answer}

lemma permitted_congr (same : ∀ g, g ∈ before ↔ g ∈ other) : e.Permitted before ↔ e.Permitted other := by
  cases e with
  | release g => exact same g
  | _ => exact Iff.rfl

lemma fitting_congr (same : ∀ g, g ∈ before ↔ g ∈ other) : e.Fitting before r ↔ e.Fitting other r := by
  cases e with
  | lease pool =>
    cases r with
    | ok l => exact not_congr (same _)
    | error f => exact Iff.rfl
  | send lease request => cases r <;> exact Iff.rfl
  | _ => exact Iff.rfl

lemma mem_held_congr (same : ∀ g, g ∈ before ↔ g ∈ other) (g : Guard) :
    g ∈ e.held before r ↔ g ∈ e.held other r := by
  cases e with
  | lease pool =>
    cases r with
    | ok l => simp only [held, List.mem_cons, same]
    | error f => exact same g
  | release h => simp only [held, List.mem_filter, same]
  | _ => exact same g

/-- A lease that is taken and given back leaves what was held before. -/
lemma mem_held_release {l : Lease} {pool : Nat} (new : .lease pool l.ticket ∉ before) (g : Guard) :
    g ∈ (release (.lease pool l.ticket)).held ((lease pool).held before (.ok l)) () ↔ g ∈ before := by
  simp only [held, List.mem_filter, List.mem_cons, ne_eq, decide_not, Bool.not_eq_true',
    decide_eq_false_iff_not]
  constructor
  · rintro ⟨rfl | hg, other⟩
    · exact absurd rfl other
    · exact hg
  · intro hg
    exact ⟨.inr hg, fun same => new (same ▸ hg)⟩

end Effect

namespace Job
variable {α β : Type} {after : α → List Guard} {next : β → List Guard} {held other : List Guard}

/-- Whatever it is answered, the job gives back only what it holds, and `after` tells what the result
holds of the rest. -/
def Owns (after : α → List Guard) : List Guard → Job α → Prop
  | held, .done a => (after a).Nodup ∧ ∀ g, g ∈ held ↔ g ∈ after a
  | held, .ask e k => e.Permitted held ∧ ∀ r, e.Fitting held r → Owns after (e.held held r) (k r)

/-- The job lets its caller keep whatever he holds. -/
def Neutral (j : Job α) : Prop := ∀ held : List Guard, held.Nodup → j.Owns (fun _ => held) held

lemma Owns.congr {j : Job α} (h : j.Owns after held) (same : ∀ g, g ∈ held ↔ g ∈ other) :
    j.Owns after other := by
  induction j generalizing held other with
  | done a => exact ⟨h.1, fun g => (same g).symm.trans (h.2 g)⟩
  | ask e k ih =>
    refine ⟨(Effect.permitted_congr same).mp h.1, fun r hr => ?_⟩
    exact ih r (h.2 r ((Effect.fitting_congr same).mpr hr)) (Effect.mem_held_congr same)

/-- A sequence goes on with what its first part has left. -/
theorem Owns.bind_run {j : Job α} {f : α → Job β} (h : j.Owns after held)
    (hf : ∀ t a, Run j t a → (after a).Nodup → (f a).Owns next (after a)) :
    (j >>= f).Owns next held := by
  induction j generalizing held with
  | done a => exact (hf [] a (.done a) h.1).congr fun g => (h.2 g).symm
  | ask e k ih => exact ⟨h.1, fun r hr => ih r (h.2 r hr) fun t a run => hf _ a (.ask r run)⟩

lemma Owns.bind {j : Job α} {f : α → Job β} (h : j.Owns after held)
    (hf : ∀ a, (after a).Nodup → (f a).Owns next (after a)) : (j >>= f).Owns next held :=
  h.bind_run fun _ a _ => hf a

lemma owns_done {a : α} (once : (after a).Nodup) (same : ∀ g, g ∈ held ↔ g ∈ after a) :
    (done a).Owns after held := ⟨once, same⟩

lemma neutral_pure (a : α) : (pure a : Job α).Neutral := fun _ once => ⟨once, fun _ => Iff.rfl⟩

lemma Neutral.bind {j : Job α} {f : α → Job β} (h : j.Neutral) (hf : ∀ a, (f a).Neutral) :
    (j >>= f).Neutral :=
  fun held once => (h held once).bind fun a _ => hf a held once

lemma neutral_emit (event : Event) : (emit event).Neutral :=
  fun _ once => ⟨trivial, fun _ _ => ⟨once, fun _ => Iff.rfl⟩⟩

end Job

namespace Exchange
variable {α : Type} {next : α → List Guard} {held guards : List Guard} {x y : Exchange}

/-- What is given back is not held any more. -/
lemma owns_releaseAll {j : Job α} (once : guards.Nodup) (own : ∀ g ∈ guards, g ∈ held)
    (h : j.Owns next (held.filter (· ∉ guards))) : (releaseAll guards >>= fun _ => j).Owns next held := by
  induction guards generalizing held with
  | nil => exact h.congr fun g => by simp
  | cons g rest ih =>
    obtain ⟨new, once⟩ := List.nodup_cons.mp once
    change (Job.ask (.release g) fun _ => releaseAll rest >>= fun _ => j).Owns next held
    refine ⟨own g List.mem_cons_self, fun _ _ => ih once (fun g' hg => ?_) (h.congr fun g' => ?_)⟩
    · refine List.mem_filter.mpr ⟨own g' (List.mem_cons_of_mem _ hg), decide_eq_true fun same => ?_⟩
      exact new (same ▸ hg)
    · simp only [Effect.held, List.mem_filter, List.mem_cons, decide_eq_true_eq, not_or, and_assoc,
        ne_eq]

/-- A change of the response gives back what it drops. It may take up something else that is held. -/
lemma owns_dropped (a : α) (once : x.guards.Nodup) (after : y.guards.Nodup)
    (same : ∀ g, g ∈ held ↔ g ∈ x.guards ∨ g ∈ y.guards) :
    (releaseAll (dropped x y) >>= fun _ => Job.done (a, y)).Owns (fun p => p.2.guards) held := by
  have dropped_iff (g : Guard) : g ∈ dropped x y ↔ g ∈ x.guards ∧ g ∉ y.guards := by
    simp only [dropped, List.mem_filter, decide_eq_true_eq]
    rfl
  refine owns_releaseAll (once.filter _) (fun g hg => ?_) (Job.owns_done after fun g => ?_)
  · exact (same g).mpr (.inl ((dropped_iff g).mp hg).1)
  · simp only [List.mem_filter, decide_eq_true_eq, same, dropped_iff]
    tauto

/-- What the response holds may stay or go. -/
lemma owns_kept (a : α) (once : x.guards.Nodup) (h : y.guards = x.guards ∨ y.guards = []) :
    (releaseAll (dropped x y) >>= fun _ => Job.done (a, y)).Owns (fun p => p.2.guards) x.guards := by
  rcases h with same | none
  · exact owns_dropped a once (same ▸ once) fun g => by rw [same, or_self]
  · exact owns_dropped a once (none ▸ List.nodup_nil) fun g => by rw [none]; simp

end Exchange

namespace ExchangeJob
variable {α β γ : Type}

/-- From every exchange on, the job holds what the response holds. -/
def Owns (j : ExchangeJob α) : Prop :=
  ∀ x : Exchange, x.guards.Nodup → (j.run x).Owns (fun p => p.2.guards) x.guards

namespace Owns

lemma pure (a : α) : Owns (pure a) := fun _ once => ⟨once, fun _ => Iff.rfl⟩

lemma get : Owns get := fun _ once => ⟨once, fun _ => Iff.rfl⟩

lemma bind {j : ExchangeJob α} {k : α → ExchangeJob β} (hj : Owns j) (hk : ∀ a, Owns (k a)) :
    Owns (j >>= k) := by
  intro x once
  exact (hj x once).bind fun p after => hk p.1 p.2 after

lemma lift {j : Job α} (h : j.Neutral) : Owns (liftM j : ExchangeJob α) := by
  intro x once
  exact (h x.guards once).bind fun a _ => Job.owns_done once fun _ => Iff.rfl

lemma change {f : Exchange → Exchange} (h : ∀ x, (f x).guards = x.guards ∨ (f x).guards = []) :
    Owns (Exchange.change f) :=
  fun x once => Exchange.owns_kept () once (h x)

lemma forM {f : γ → ExchangeJob Unit} {list : List γ} (h : ∀ c ∈ list, Owns (f c)) :
    Owns (list.forM f) := by
  induction list with
  | nil => exact pure ()
  | cons c rest ih =>
    exact bind (h c List.mem_cons_self) fun _ => ih fun d hd => h d (List.mem_cons_of_mem _ hd)

end Owns
end ExchangeJob

namespace Handler
variable {α β : Type}

/-- From every exchange on, the handler holds what the response holds, whether it fails or not. -/
def Owns (h : Handler α) : Prop := ExchangeJob.Owns (ExceptT.run h)

namespace Owns

lemma pure (a : α) : Owns (pure a : Handler α) := ExchangeJob.Owns.pure _

lemma throw (e : Failure) : Owns (throw e : Handler α) := ExchangeJob.Owns.pure _

lemma view : Owns Handler.view := fun _ once => ⟨once, fun _ => Iff.rfl⟩

lemma bind {h : Handler α} {k : α → Handler β} (hh : Owns h) (hk : ∀ a, Owns (k a)) :
    Owns (h >>= k) := by
  unfold Owns
  rw [ExceptT.run_bind]
  refine ExchangeJob.Owns.bind hh fun r => ?_
  cases r with
  | ok a => exact hk a
  | error e => exact .pure _

lemma exchange {j : ExchangeJob α} (h : ExchangeJob.Owns j) : Owns (liftM j : Handler α) :=
  ExchangeJob.Owns.bind h fun _ => .pure _

lemma job {j : Job α} (h : j.Neutral) : Owns (liftM j : Handler α) := exchange (.lift h)

lemma change {f : Exchange → Exchange} (h : ∀ x, (f x).guards = x.guards ∨ (f x).guards = []) :
    Owns (Handler.change f) := exchange (.change h)

lemma attempt {f : Exchange → Exchange × Except Failure Unit}
    (h : ∀ x, (f x).1.guards = x.guards ∨ (f x).1.guards = []) : Owns (Exchange.attempt f) :=
  fun x once => Exchange.owns_kept (f x).2 once (h x)

lemma tryCatch {h : Handler α} {k : Failure → Handler α} (hh : Owns h) (hk : ∀ e, Owns (k e)) :
    Owns (tryCatch h k) := by
  intro x once
  refine (hh x once).bind fun p after => ?_
  obtain ⟨r, y⟩ := p
  cases r with
  | ok a => exact Job.owns_done after fun _ => Iff.rfl
  | error e => exact hk e y after

end Owns
end Handler
end Gateway
