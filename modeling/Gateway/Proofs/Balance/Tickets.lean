import Gateway.Proofs.Balance.Looks

/-! The tickets of a pool. A ticket stands for one lease or one request that waits or was woken, never for
two of them, and the queue counts the requests among them. -/
namespace Gateway

section Keys
variable {α : Type} {list : List α} {a : α} {k : Nat}

lemma exists_of_getElem? (h : list[k]? = some a) :
    ∃ before after, list = before ++ a :: after ∧ list.eraseIdx k = before ++ after := by
  obtain ⟨lt, rfl⟩ := List.getElem?_eq_some_iff.mp h
  refine ⟨list.take k, list.drop (k + 1), ?_, List.eraseIdx_eq_take_drop_succ ..⟩
  rw [← List.drop_eq_getElem_cons lt, List.take_append_drop]

/-- Without its key only the entry itself is gone from a list that has the key once. -/
lemma exists_of_key (key : α → Nat) (mem : a ∈ list) (once : list.countP (key · = key a) ≤ 1) :
    ∃ before after, list = before ++ a :: after ∧
      (list.filter fun b => key b ≠ key a) = before ++ after := by
  obtain ⟨before, after, rfl⟩ := List.append_of_mem mem
  rw [List.countP_append, List.countP_cons_of_pos (by simp)] at once
  have others (l : List α) (h : l.countP (key · = key a) = 0) :
      (l.filter fun b => key b ≠ key a) = l := by
    refine List.filter_eq_self.mpr fun b hb => ?_
    have other := List.countP_eq_zero.mp h b hb
    simpa using other
  refine ⟨before, after, rfl, ?_⟩
  rw [List.filter_append, List.filter_cons_of_neg (by simp), others before (by omega),
    others after (by omega)]

end Keys

/-- Those who wait are those whose time has come and those who wait on. -/
lemma countP_due (list : List Waiter) (now : Nat) (P : Waiter → Bool) : list.countP P =
    (list.filter fun w => w.due > now).countP P + (list.filter fun w => w.due ≤ now).countP P := by
  have complement : (fun w : Waiter => !decide (w.due > now)) = fun w => decide (w.due ≤ now) := by
    funext w
    rw [← decide_not, decide_eq_decide]
    omega
  rw [List.countP_eq_countP_filter_add list P fun w => decide (w.due > now), complement]

namespace Pool
variable {p q : Pool} {now drawn ticket seeking : Nat} {lease : Lease} {outcome : Admittance}
  {out : List Nat}

/-- How often a ticket is in use. -/
def uses (p : Pool) (ticket : Nat) : Nat :=
  p.leases.countP (·.ticket = ticket) + p.waiting.countP (·.ticket = ticket) +
    p.woken.countP (·.ticket = ticket)

/-- The tickets drawn so far are in use once at most, those of the requests that are just looking
included. The queue is as long as its counter says, with those of its requests that are looking. -/
structure Orderly (p : Pool) (drawn : Nat) (out : List Nat := []) (seeking : Nat := 0) : Prop where
  once : ∀ t, p.uses t + out.count t ≤ 1
  fresh : ∀ t, drawn ≤ t → p.uses t + out.count t = 0
  queued : p.queued = p.waiting.length + p.woken.length + seeking
  bounded : 0 < p.options.maxQueueSize → p.queued ≤ p.options.maxQueueSize
  spare : p.spare = true → p.waiting = []

lemma orderly_start (name : String) (hosts : List Host) (options : PoolOptions) :
    Orderly { name, hosts, options } drawn where
  once _ := Nat.zero_le _
  fresh _ _ := rfl
  queued := rfl
  bounded _ := Nat.zero_le _
  spare := nofun

namespace Orderly

lemma mono (h : p.Orderly drawn out seeking) {more : Nat} (le : drawn ≤ more) :
    p.Orderly more out seeking :=
  { h with fresh := fun t ht => h.fresh t (Nat.le_trans le ht) }

/-- What uses no ticket more and does not lengthen the queue stays orderly. -/
lemma of_le (h : p.Orderly drawn out seeking) {rest : List Nat} {still : Nat}
    (uses : ∀ t, q.uses t + rest.count t ≤ p.uses t + out.count t)
    (options : q.options = p.options) (le : q.queued ≤ p.queued)
    (queued : q.queued = q.waiting.length + q.woken.length + still)
    (spare : q.spare = true → q.waiting = []) : q.Orderly drawn rest still := by
  refine ⟨fun t => Nat.le_trans (uses t) (h.once t), fun t ht => ?_, queued, fun pos => ?_, spare⟩
  · have none := h.fresh t ht
    have le := uses t
    omega
  · rw [options] at pos ⊢
    exact Nat.le_trans le (h.bounded pos)

/-- No two leases have one ticket. -/
lemma lease_once (h : p.Orderly drawn out seeking) (t : Nat) :
    p.leases.countP (·.ticket = t) ≤ 1 := by
  have once := h.once t
  unfold uses at once
  omega

/-- A request that comes in draws a ticket. -/
lemma draw (h : p.Orderly drawn) (new : drawn ≤ ticket) : p.Orderly (ticket + 1) [ticket] := by
  refine { h with once := fun t => ?_, fresh := fun t ht => ?_ }
  · have once := h.once t
    have none := h.fresh t
    by_cases same : ticket = t
    · subst same
      have none := h.fresh ticket new
      rw [List.count_singleton_self]
      omega
    · rwa [List.count_singleton, if_neg (by simpa using same)]
  · rw [List.count_singleton, if_neg (by simp; omega)]
    exact h.fresh t (by omega)

lemma leased (h : p.Orderly drawn [ticket] seeking) (i : Nat) (probe : Bool) :
    (p.leased i probe ticket).Orderly drawn [] seeking := by
  refine h.of_le (fun t => ?_) rfl (Nat.le_refl _) h.queued h.spare
  simp only [uses, Pool.leased, List.countP_append, List.countP_singleton, decide_eq_true_eq,
    List.count_singleton, beq_iff_eq, List.count_nil]
  omega

lemma grants (h : p.Orderly drawn [ticket] seeking) (hq : Grants p now ticket q lease) :
    q.Orderly drawn [] seeking := by
  cases hq with
  | test at_ due room => exact h.leased _ true
  | @choice i host cursor at_ healthy room => exact { h.leased i false with }

lemma leaveQueue (h : p.Orderly drawn [] (seeking + 1)) : p.leaveQueue.Orderly drawn [] seeking := by
  refine h.of_le (fun t => Nat.le_refl _) rfl (Nat.sub_le ..) ?_ h.spare
  have queued := h.queued
  dsimp only [Pool.leaveQueue]
  omega

/-- A request of the queue that looks leaves it or goes to its end. -/
lemma looks (h : p.Orderly drawn [ticket] 1) (unspared : p.spare = false)
    (hq : Looks p now ticket q outcome) : q.Orderly drawn := by
  have queued := h.queued
  cases hq with
  | granted found => exact (h.grants found).leaveQueue
  | waits cursor full usable =>
    refine h.of_le (fun t => ?_) rfl (Nat.le_refl _) ?_ fun spared => ?_
    · simp only [uses, List.countP_append, List.countP_singleton, decide_eq_true_eq,
        List.count_singleton, beq_iff_eq, List.count_nil]
      omega
    · simp only [List.length_append, List.length_singleton]
      omega
    · cases unspared.symm.trans spared
  | refused cursor full unusable =>
    refine h.of_le (fun t => Nat.le_add_right ..) rfl (Nat.sub_le ..) ?_ h.spare
    dsimp only [Pool.leaveQueue]
    omega

/-- The queue is joined only when there is space. -/
lemma enters (h : p.Orderly drawn) (new : drawn ≤ ticket) (hq : Enters p now ticket q outcome) :
    q.Orderly (ticket + 1) := by
  have drawn_ := h.draw new
  cases hq with
  | granted found => exact drawn_.grants found
  | refused cursor f => exact { h.mono (Nat.le_succ_of_le new) with }
  | waits cursor full usable space =>
    have queued := h.queued
    refine ⟨fun t => ?_, fun t ht => ?_, ?_, fun pos => space pos, nofun⟩
    · have once := drawn_.once t
      simp only [uses, List.countP_append, List.countP_singleton, decide_eq_true_eq,
        List.count_singleton, beq_iff_eq, List.count_nil] at once ⊢
      omega
    · have none := drawn_.fresh t ht
      simp only [uses, List.countP_append, List.countP_singleton, decide_eq_true_eq,
        List.count_singleton, beq_iff_eq, List.count_nil] at none ⊢
      omega
    · simp only [List.length_append, List.length_singleton]
      omega

lemma tryLease (h : p.Orderly drawn) (new : drawn ≤ ticket) :
    (p.tryLease now ticket).1.Orderly (ticket + 1) := by
  cases e : p.tryLease now ticket with
  | mk q found =>
    cases found with
    | some lease => exact (h.draw new).grants (grants_of_tryLease e)
    | none =>
      rw [tryLease_none e]
      exact { h.mono (Nat.le_succ_of_le new) with }

lemma enter (h : p.Orderly drawn) (new : drawn ≤ ticket) :
    (p.enter now ticket).1.Orderly (ticket + 1) :=
  h.enters new (enters_of_enter p now ticket)

/-- A woken request goes from the woken to those that look. -/
lemma called (h : p.Orderly drawn) {k : Nat} {w : Woken} (at_ : p.woken[k]? = some w) :
    { p with woken := p.woken.eraseIdx k, spare := false }.Orderly drawn [w.ticket] 1 := by
  obtain ⟨before, after, all, rest⟩ := exists_of_getElem? at_
  have queued := h.queued
  refine h.of_le (fun t => ?_) rfl (Nat.le_refl _) ?_ nofun
  · simp only [uses, rest]
    simp only [all, List.countP_append, List.countP_cons, decide_eq_true_eq, List.count_singleton,
      beq_iff_eq, List.count_nil]
    omega
  · rw [all] at queued
    simp only [rest, List.length_append, List.length_cons] at queued ⊢
    omega

lemma settleIn (h : p.Orderly drawn) {k : Nat} {w : Woken} (at_ : p.woken[k]? = some w) :
    ({ p with woken := p.woken.eraseIdx k }.settleIn now w.ticket).1.Orderly drawn :=
  (h.called at_).looks rfl (looks_of_settleIn { p with woken := p.woken.eraseIdx k } now w.ticket)

lemma wakeOne (h : p.Orderly drawn) : p.wakeOne.Orderly drawn := by
  have queued := h.queued
  unfold Pool.wakeOne
  split
  · next nobody => exact { h with spare := fun _ => nobody }
  · next w rest first =>
    refine h.of_le (fun t => ?_) rfl (Nat.le_refl _) ?_ fun spared => ?_
    · simp only [uses, first, List.countP_append, List.countP_cons, List.countP_nil,
        decide_eq_true_eq]
      omega
    · simp only [first, List.length_cons, List.length_append, List.length_nil] at queued ⊢
      omega
    · have nobody := h.spare spared
      rw [first] at nobody
      cases nobody

lemma wakeAll (h : p.Orderly drawn) : p.wakeAll.Orderly drawn := by
  have queued := h.queued
  refine h.of_le (fun t => ?_) rfl (Nat.le_refl _) ?_ fun _ => rfl
  · simp only [uses, Pool.wakeAll, List.countP_append, List.countP_map, List.countP_nil,
      Function.comp_def]
    omega
  · simp only [Pool.wakeAll, List.length_append, List.length_map, List.length_nil]
    omega

lemma wakeDue (h : p.Orderly drawn) : (p.wakeDue now).Orderly drawn := by
  have queued := h.queued
  refine h.of_le (fun t => ?_) rfl (Nat.le_refl _) ?_ fun spared => ?_
  · have both := countP_due p.waiting now fun w => decide (w.ticket = t)
    simp only [uses, Pool.wakeDue, List.countP_append, List.countP_map, Function.comp_def]
    omega
  · have both := countP_due p.waiting now fun _ => true
    simp only [List.countP_true] at both
    simp only [Pool.wakeDue, List.length_append, List.length_map]
    omega
  · dsimp only [Pool.wakeDue]
    rw [h.spare spared, List.filter_nil]

/-- A request that goes away takes its ticket along and nobody else's. -/
lemma cancel (h : p.Orderly drawn) : (p.cancel ticket).Orderly drawn := by
  have queued := h.queued
  have once := h.once ticket
  unfold uses at once
  unfold Pool.cancel
  split
  · next waits =>
    obtain ⟨w, member, named⟩ := List.any_eq_true.mp waits
    obtain rfl := of_decide_eq_true named
    obtain ⟨before, after, all, rest⟩ := exists_of_key Waiter.ticket member (by omega)
    have left : { p with waiting := p.waiting.filter (·.ticket ≠ w.ticket) }.Orderly drawn [] 1 := by
      refine h.of_le (fun t => ?_) rfl (Nat.le_refl _) ?_ fun spared => ?_
      · simp only [uses, rest]
        simp only [all, List.countP_append, List.countP_cons]
        omega
      · rw [all] at queued
        simp only [rest, List.length_append, List.length_cons] at queued ⊢
        omega
      · rw [h.spare spared, List.filter_nil]
    exact left.leaveQueue
  · split
    · exact h
    · next w found =>
      have named := List.find?_some found
      obtain rfl := of_decide_eq_true named
      obtain ⟨before, after, all, rest⟩ :=
        exists_of_key Woken.ticket (List.mem_of_find?_eq_some found) (by omega)
      have left : { p with woken := p.woken.filter (·.ticket ≠ w.ticket) }.Orderly drawn [] 1 := by
        refine h.of_le (fun t => ?_) rfl (Nat.le_refl _) ?_ h.spare
        · simp only [uses, rest]
          simp only [all, List.countP_append, List.countP_cons]
          omega
        · rw [all] at queued
          simp only [rest, List.length_append, List.length_cons] at queued ⊢
          omega
      dsimp only
      split
      · exact left.leaveQueue.wakeOne
      · exact left.leaveQueue

lemma release (h : p.Orderly drawn) : (p.release ticket).1.Orderly drawn := by
  unfold Pool.release
  split
  · exact h
  · refine wakeOne (h.of_le (fun t => ?_) rfl (Nat.le_refl _) h.queued h.spare)
    have fewer := List.Sublist.countP_le (p := fun l => decide (l.ticket = t))
      (List.filter_sublist (p := fun l => decide (l.ticket ≠ ticket)) (l := p.leases))
    simp only [uses, updateHost]
    omega

lemma settle (h : p.Orderly drawn) (i : Nat) (f : Host → Host) :
    ((p.updateHost i f).settle ticket).Orderly drawn := by
  refine h.of_le (fun t => ?_) rfl (Nat.le_refl _) h.queued h.spare
  have same : (fun l : LiveLease =>
      decide ((if l.ticket = ticket then { l with settled := true } else l).ticket = t)) =
        fun l => decide (l.ticket = t) := by
    funext l
    split <;> rfl
  simp only [uses, Pool.settle, updateHost, List.countP_map, Function.comp_def, same]
  omega

lemma reportFailure (h : p.Orderly drawn) : (p.reportFailure now ticket).1.Orderly drawn := by
  unfold Pool.reportFailure
  split
  · exact h
  · exact (h.settle _ _).wakeAll

lemma reportSuccess (h : p.Orderly drawn) : (p.reportSuccess ticket).1.Orderly drawn := by
  unfold Pool.reportSuccess
  split
  · exact h
  · split
    · exact h.settle _ _
    · exact h

end Orderly

/-- Every step leaves the tickets in order. -/
theorem Moment.step_orderly {m : Moment} (h : m.pool.Orderly m.drawn) (a : Act) :
    (m.step a).pool.Orderly (m.step a).drawn := by
  cases a with
  | wait milliseconds => exact h
  | wakeDue => exact h.wakeDue
  | tryLease => exact h.tryLease (Nat.le_refl _)
  | enter => exact h.enter (Nat.le_refl _)
  | look k =>
    unfold step
    dsimp only
    split
    · next w at_ => exact h.settleIn at_
    · exact h
  | cancel ticket => exact h.cancel
  | reportFailure ticket => exact h.reportFailure
  | reportSuccess ticket => exact h.reportSuccess
  | release ticket => exact h.release

theorem Moment.run_orderly {m : Moment} (h : m.pool.Orderly m.drawn) (acts : List Act) :
    (m.run acts).pool.Orderly (m.run acts).drawn := by
  induction acts generalizing m with
  | nil => exact h
  | cons a rest ih => exact ih (step_orderly h a)

end Pool
end Gateway
