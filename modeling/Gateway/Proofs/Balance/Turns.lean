import Gateway.Proofs.Balance.Accounts

/-! What a ticket stands for: a lease, a place in the queue, or nothing. An operation on a pool changes
this for one ticket at most, and leaves the tickets in order and the hosts with their accounts. -/
namespace Gateway

/-- How many leases come of an admittance. -/
def Admittance.leases : Admittance → Nat
  | granted _ => 1
  | refused _ => 0
  | waits => 0

/-- How many places in the queue come of it. -/
def Admittance.places : Admittance → Nat
  | granted _ => 0
  | refused _ => 0
  | waits => 1

namespace Pool
variable {p q r : Pool} {now drawn ticket leased placed : Nat} {lease : Lease}

def leasesOf (p : Pool) (ticket : Nat) : Nat := p.leases.countP (·.ticket = ticket)

/-- Places in the queue, of requests that wait or were woken. -/
def placesOf (p : Pool) (ticket : Nat) : Nat :=
  p.waiting.countP (·.ticket = ticket) + p.woken.countP (·.ticket = ticket)

lemma uses_eq (p : Pool) (ticket : Nat) : p.uses ticket = p.leasesOf ticket + p.placesOf ticket :=
  Nat.add_assoc ..

structure Sound (p : Pool) (drawn : Nat) : Prop where
  orderly : p.Orderly drawn
  accounted : p.ledger.Accounted

/-- From `p` to `q` the ticket has come to stand for these leases and places. The queue counts it, other
tickets stand for what they did, and the pool is used as it was made. -/
structure Turn (p q : Pool) (ticket leased placed : Nat) : Prop where
  leases : ∀ t, q.leasesOf t = if t = ticket then leased else p.leasesOf t
  places : ∀ t, q.placesOf t = if t = ticket then placed else p.placesOf t
  queued : q.queued + p.placesOf ticket = p.queued + placed
  options : q.options = p.options
  budgets : q.hosts.map Host.budget = p.hosts.map Host.budget

lemma Turn.trans {more fewer : Nat} (h : Turn p q ticket leased placed) (g : Turn q r ticket more fewer) :
    Turn p r ticket more fewer where
  leases t := by
    rw [g.leases, h.leases]
    split <;> rfl
  places t := by
    rw [g.places, h.places]
    split <;> rfl
  queued := by
    have first := h.queued
    have second := g.queued
    rw [h.places, if_pos rfl] at second
    omega
  options := g.options.trans h.options
  budgets := g.budgets.trans h.budgets

/-- From `p` to `q` every ticket stands for what it did. -/
structure Still (p q : Pool) : Prop where
  leases : ∀ t, q.leasesOf t = p.leasesOf t
  places : ∀ t, q.placesOf t = p.placesOf t
  queued : q.queued = p.queued
  options : q.options = p.options
  budgets : q.hosts.map Host.budget = p.hosts.map Host.budget

/-- A ticket that stood for nothing now stands for what was added. -/
lemma Turn.of_added (unleased : p.leasesOf ticket = 0) (unplaced : p.placesOf ticket = 0)
    (leases : ∀ t, q.leasesOf t = p.leasesOf t + if t = ticket then leased else 0)
    (places : ∀ t, q.placesOf t = p.placesOf t + if t = ticket then placed else 0)
    (queued : q.queued = p.queued + placed) (options : q.options = p.options)
    (budgets : q.hosts.map Host.budget = p.hosts.map Host.budget) : Turn p q ticket leased placed where
  leases t := by
    rw [leases]
    split
    · next same => rw [same, unleased, Nat.zero_add]
    · rfl
  places t := by
    rw [places]
    split
    · next same => rw [same, unplaced, Nat.zero_add]
    · rfl
  queued := by rw [queued, unplaced]; rfl
  options := options
  budgets := budgets

lemma Shift.budgets {retry : Nat} {a : Act} (h : Shift now retry a p.ledger q.ledger) :
    q.hosts.map Host.budget = p.hosts.map Host.budget :=
  h.map_hosts Host.budget fun _ _ _ _ => rfl

lemma Sound.of_shift {more retry : Nat} {a : Act} (h : p.Sound drawn) (orderly : q.Orderly more)
    (shift : Shift now retry a p.ledger q.ledger) : q.Sound more :=
  ⟨orderly, shift.accounted h.orderly.lease_once h.accounted⟩

lemma Sound.mono (h : p.Sound drawn) {more : Nat} (le : drawn ≤ more) : p.Sound more :=
  { h with orderly := h.orderly.mono le }

/-- A ticket that has just been drawn stands for nothing. -/
lemma Orderly.unused (h : p.Orderly drawn) (new : drawn ≤ ticket) :
    p.leasesOf ticket = 0 ∧ p.placesOf ticket = 0 := by
  have none := h.fresh ticket new
  rw [uses_eq] at none
  omega

section Asking

lemma countP_ticket_settled (t : Nat) :
    (p.ledger.settled ticket).countP (·.ticket = t) = p.leases.countP (·.ticket = t) := by
  rw [Ledger.settled, List.countP_map]
  refine List.countP_congr fun l _ => ?_
  dsimp only [Function.comp_apply]
  split <;> rfl

lemma leasesOf_leased (i : Nat) (probe : Bool) (t : Nat) :
    (p.leased i probe ticket).leasesOf t = p.leasesOf t + if t = ticket then 1 else 0 := by
  simp only [leasesOf, Pool.leased, List.countP_append, List.countP_singleton, decide_eq_true_eq,
    eq_comm (a := t)]

/-- A grant is a lease for the ticket. -/
lemma Grants.leasesOf_eq (h : Grants p now ticket q lease) (t : Nat) :
    q.leasesOf t = p.leasesOf t + if t = ticket then 1 else 0 := by
  cases h with
  | test => exact leasesOf_leased ..
  | choice => exact leasesOf_leased ..

lemma Grants.placesOf_eq (h : Grants p now ticket q lease) (t : Nat) : q.placesOf t = p.placesOf t := by
  cases h <;> rfl

lemma Grants.queued_eq (h : Grants p now ticket q lease) : q.queued = p.queued := by
  cases h <;> rfl

/-- Who waits has a place at the end. -/
lemma placesOf_waits (w : Waiter) (t : Nat) :
    placesOf { p with waiting := p.waiting ++ [w] } t =
      p.placesOf t + if t = w.ticket then 1 else 0 := by
  simp only [placesOf, List.countP_append, List.countP_singleton, decide_eq_true_eq,
    eq_comm (a := t)]
  omega

lemma turn_enter (h : p.Orderly drawn) (new : drawn ≤ ticket) :
    Turn p (p.enter now ticket).1 ticket (p.enter now ticket).2.leases
      (p.enter now ticket).2.places := by
  obtain ⟨unleased, unplaced⟩ := h.unused new
  have entry := enters_of_enter p now ticket
  have options : (p.enter now ticket).1.options = p.options := options_enter
  have budgets := (enter_shift .enter p now ticket).budgets
  generalize p.enter now ticket = found at entry options budgets ⊢
  obtain ⟨q, outcome⟩ := found
  refine .of_added unleased unplaced (fun t => ?_) (fun t => ?_) ?_ options budgets
  all_goals cases entry
  case refine_1.granted found => exact found.leasesOf_eq t
  case refine_1.refused => simp [Admittance.leases, leasesOf]
  case refine_1.waits => simp [Admittance.leases, leasesOf]
  case refine_2.granted found => simp [Admittance.places, found.placesOf_eq]
  case refine_2.refused => simp [Admittance.places, placesOf]
  case refine_2.waits => exact placesOf_waits _ t
  case refine_3.granted found => exact found.queued_eq
  case refine_3.refused => rfl
  case refine_3.waits => rfl

lemma Sound.enter (h : p.Sound drawn) (new : drawn ≤ ticket) :
    (p.enter now ticket).1.Sound (ticket + 1) :=
  h.of_shift (h.orderly.enter new) (enter_shift .enter p now ticket)

lemma turn_tryLease (h : p.Orderly drawn) (new : drawn ≤ ticket) :
    Turn p (p.tryLease now ticket).1 ticket (if (p.tryLease now ticket).2.isSome then 1 else 0) 0 := by
  obtain ⟨unleased, unplaced⟩ := h.unused new
  have options : (p.tryLease now ticket).1.options = p.options := options_tryLease
  have budgets := (tryLease_shift .tryLease p now ticket).budgets
  cases e : p.tryLease now ticket with
  | mk q found =>
    rw [e] at options budgets
    cases found with
    | some lease =>
      have grants := grants_of_tryLease e
      exact .of_added unleased unplaced grants.leasesOf_eq
        (fun t => by rw [grants.placesOf_eq, ite_self]; rfl) grants.queued_eq options budgets
    | none =>
      rw [tryLease_none e] at options budgets ⊢
      exact .of_added unleased unplaced (fun t => by simp [leasesOf]) (fun t => by simp [placesOf]) rfl
        options budgets

lemma Sound.tryLease (h : p.Sound drawn) (new : drawn ≤ ticket) :
    (p.tryLease now ticket).1.Sound (ticket + 1) :=
  h.of_shift (h.orderly.tryLease new) (tryLease_shift .tryLease p now ticket)

/-- A request that was woken gives up its place for a lease, or for nothing, or takes another. -/
lemma turn_settleIn (h : p.Orderly drawn) {k : Nat} {w : Woken} (at_ : p.woken[k]? = some w) :
    let look := { p with woken := p.woken.eraseIdx k }.settleIn now w.ticket
    Turn p look.1 w.ticket look.2.leases look.2.places := by
  intro look
  obtain ⟨before, after, all, rest⟩ := exists_of_getElem? at_
  have once := h.once w.ticket
  have queued := h.queued
  simp only [uses, all, List.countP_append, List.countP_cons, decide_true, if_true] at once
  simp only [all, List.length_append, List.length_cons] at queued
  let base : Pool := { p with woken := p.woken.eraseIdx k, spare := false }
  have looks : Looks base now w.ticket look.1 look.2 :=
    looks_of_settleIn { p with woken := p.woken.eraseIdx k } now w.ticket
  have unleased : p.leasesOf w.ticket = 0 := by
    unfold leasesOf
    omega
  have others (t : Nat) : base.leaveQueue.placesOf t = if t = w.ticket then 0 else p.placesOf t := by
    simp only [placesOf, base, leaveQueue, rest]
    simp only [all, List.countP_append, List.countP_cons, decide_eq_true_eq]
    split
    · next same => subst same; omega
    · next other => rw [if_neg fun same => other same.symm, Nat.add_zero]
  have left : Turn p base.leaveQueue w.ticket 0 0 := by
    refine ⟨fun t => ?_, others, ?_, rfl, rfl⟩
    · change p.leasesOf t = _
      split
      · next same => rw [same, unleased]
      · rfl
    · simp only [placesOf, all, List.countP_append, List.countP_cons, decide_true, if_true, base,
        leaveQueue]
      omega
  have options : look.1.options = p.options := options_settleIn
  have budgets : look.1.hosts.map Host.budget = p.hosts.map Host.budget :=
    (settleIn_shift (.look k) { p with woken := p.woken.eraseIdx k } now w.ticket).budgets
  refine left.trans (.of_added unleased ((others w.ticket).trans (if_pos rfl)) (fun t => ?_)
    (fun t => ?_) ?_ options budgets)
  all_goals
    generalize look = found at looks ⊢
    obtain ⟨q, outcome⟩ := found
    cases looks
  case refine_1.granted found => exact found.leasesOf_eq t
  case refine_1.waits => simp [Admittance.leases, leasesOf, leaveQueue]
  case refine_1.refused => simp [Admittance.leases, leasesOf, leaveQueue]
  case refine_2.granted found =>
    rw [Admittance.places, ite_self]
    exact found.placesOf_eq t
  case refine_2.waits => exact placesOf_waits _ t
  case refine_2.refused => simp [Admittance.places, placesOf, leaveQueue]
  case refine_3.granted found => exact congrArg (· - 1) found.queued_eq
  case refine_3.waits =>
    change p.queued = p.queued - 1 + 1
    omega
  case refine_3.refused => rfl

lemma Sound.settleIn (h : p.Sound drawn) {k : Nat} {w : Woken} (at_ : p.woken[k]? = some w) :
    ({ p with woken := p.woken.eraseIdx k }.settleIn now w.ticket).1.Sound drawn :=
  h.of_shift (h.orderly.settleIn at_)
    (settleIn_shift (.look k) { p with woken := p.woken.eraseIdx k } now w.ticket)

end Asking

section Leaving

lemma leasesOf_wakeOne (t : Nat) : p.wakeOne.leasesOf t = p.leasesOf t := by
  unfold wakeOne
  split <;> rfl

lemma placesOf_wakeOne (t : Nat) : p.wakeOne.placesOf t = p.placesOf t := by
  unfold wakeOne
  split
  · rfl
  · next w rest first =>
    simp only [placesOf, first, List.countP_append, List.countP_cons, List.countP_nil]
    omega

lemma queued_wakeOne : p.wakeOne.queued = p.queued := by
  unfold wakeOne
  split <;> rfl

lemma countP_key_without {α : Type} (key : α → Nat) (list : List α) (k t : Nat) :
    (list.filter (key · ≠ k)).countP (key · = t) = if t = k then 0 else list.countP (key · = t) := by
  rw [List.countP_filter]
  split
  · next same =>
    refine List.countP_eq_zero.mpr fun a _ => ?_
    simp [same]
  · next other =>
    refine List.countP_congr fun a _ => ?_
    simp only [Bool.and_eq_true, decide_eq_true_eq, and_iff_left_iff_imp]
    exact fun named same => other (named.symm.trans same)

/-- A lease that is given back is gone. -/
lemma turn_release (p : Pool) (ticket : Nat) :
    Turn p (p.release ticket).1 ticket 0 (p.placesOf ticket) := by
  have options : (p.release ticket).1.options = p.options := options_release
  have budgets := (release_shift p 0 ticket).budgets
  cases live : p.live? ticket with
  | none =>
    have unleased : p.leasesOf ticket = 0 := List.countP_eq_zero.mpr (List.find?_eq_none.mp live)
    simp only [release, live]
    refine ⟨fun t => ?_, fun t => ?_, rfl, rfl, rfl⟩
    · split
      · next same => rw [same, unleased]
      · rfl
    · split
      · next same => rw [same]
      · rfl
  | some l =>
    simp only [release, live] at options budgets ⊢
    refine ⟨fun t => ?_, fun t => ?_, ?_, options, budgets⟩
    · rw [leasesOf_wakeOne]
      exact countP_key_without LiveLease.ticket p.leases ticket t
    · rw [placesOf_wakeOne]
      by_cases same : t = ticket
      · rw [if_pos same, same]; rfl
      · rw [if_neg same]; rfl
    · rw [queued_wakeOne]; rfl

lemma Sound.release (h : p.Sound drawn) : (p.release ticket).1.Sound drawn :=
  h.of_shift h.orderly.release (release_shift p 0 ticket)

lemma placesOf_cancel (h : p.Orderly drawn) (ticket : Nat) :
    (∀ t, (p.cancel ticket).placesOf t = if t = ticket then 0 else p.placesOf t) ∧
      (p.cancel ticket).queued + p.placesOf ticket = p.queued := by
  have once := h.once ticket
  have queued := h.queued
  have waiting : p.waiting.countP (·.ticket = ticket) ≤ p.waiting.length := List.countP_le_length
  have woken : p.woken.countP (·.ticket = ticket) ≤ p.woken.length := List.countP_le_length
  unfold uses at once
  unfold cancel
  split
  · next waits =>
    have some_ : 0 < p.waiting.countP (·.ticket = ticket) :=
      List.countP_pos_iff.mpr (List.any_eq_true.mp waits)
    constructor
    · intro t
      simp only [placesOf, leaveQueue, countP_key_without Waiter.ticket]
      split
      · next same => subst same; omega
      · rfl
    · simp only [placesOf, leaveQueue]
      omega
  · next waits =>
    have none_ : p.waiting.countP (·.ticket = ticket) = 0 := by
      refine List.countP_eq_zero.mpr fun w hw named => waits ?_
      exact List.any_eq_true.mpr ⟨w, hw, named⟩
    split
    · next absent =>
      have unwoken : p.woken.countP (·.ticket = ticket) = 0 :=
        List.countP_eq_zero.mpr (List.find?_eq_none.mp absent)
      constructor
      · intro t
        simp only [placesOf]
        split
        · next same => subst same; omega
        · rfl
      · simp only [placesOf]
        omega
    · next w found =>
      have some_ : 0 < p.woken.countP (·.ticket = ticket) :=
        have named := List.find?_some found
        List.countP_pos_iff.mpr ⟨w, List.mem_of_find?_eq_some found, named⟩
      have places (q : Pool) (t : Nat) :
          (if w.byRelease then q.wakeOne else q).placesOf t = q.placesOf t := by
        split
        · exact placesOf_wakeOne t
        · rfl
      have length (q : Pool) : (if w.byRelease then q.wakeOne else q).queued = q.queued := by
        split
        · exact queued_wakeOne
        · rfl
      dsimp only
      constructor
      · intro t
        rw [places]
        simp only [placesOf, leaveQueue, countP_key_without Woken.ticket]
        split
        · next same => subst same; omega
        · rfl
      · rw [length]
        simp only [placesOf, leaveQueue]
        omega

/-- A request that goes away gives up its place. -/
lemma turn_cancel (h : p.Orderly drawn) (ticket : Nat) :
    Turn p (p.cancel ticket) ticket (p.leasesOf ticket) 0 := by
  obtain ⟨places, queued⟩ := placesOf_cancel h ticket
  refine ⟨fun t => ?_, places, queued, options_cancel, ?_⟩
  · rw [leasesOf, show (p.cancel ticket).leases = p.leases from congrArg Ledger.leases ledger_cancel]
    split
    · next same => rw [same]; rfl
    · rfl
  · rw [show (p.cancel ticket).hosts = p.hosts from congrArg Ledger.hosts ledger_cancel]

lemma Sound.cancel (h : p.Sound drawn) : (p.cancel ticket).Sound drawn :=
  ⟨h.orderly.cancel, by rw [ledger_cancel]; exact h.accounted⟩

end Leaving

section Reporting

lemma still_reportFailure (p : Pool) (now ticket : Nat) : Still p (p.reportFailure now ticket).1 := by
  refine ⟨fun t => ?_, fun t => ?_, ?_, options_reportFailure,
    (reportFailure_shift p now ticket).budgets⟩
  all_goals unfold reportFailure; split
  · rfl
  · exact countP_ticket_settled t
  · rfl
  · simp only [placesOf, wakeAll, settle, updateHost, List.countP_append, List.countP_map,
      List.countP_nil, Function.comp_def]
    omega
  · rfl
  · rfl

lemma Sound.reportFailure (h : p.Sound drawn) : (p.reportFailure now ticket).1.Sound drawn :=
  h.of_shift h.orderly.reportFailure (reportFailure_shift p now ticket)

lemma still_reportSuccess (p : Pool) (ticket : Nat) : Still p (p.reportSuccess ticket).1 := by
  refine ⟨fun t => ?_, fun t => ?_, ?_, options_reportSuccess,
    (reportSuccess_shift p 0 ticket).budgets⟩
  all_goals unfold reportSuccess; split
  · rfl
  · split
    · exact countP_ticket_settled t
    · rfl
  · rfl
  · split <;> rfl
  · rfl
  · split <;> rfl

lemma Sound.reportSuccess (h : p.Sound drawn) : (p.reportSuccess ticket).1.Sound drawn :=
  h.of_shift h.orderly.reportSuccess (reportSuccess_shift p 0 ticket)

end Reporting

/-- Requests whose time has come keep their places. -/
lemma still_wakeDue (p : Pool) (now : Nat) : Still p (p.wakeDue now) where
  leases _ := rfl
  places t := by
    have both := countP_due p.waiting now fun w => decide (w.ticket = t)
    simp only [placesOf, wakeDue, List.countP_append, List.countP_map, Function.comp_def]
    omega
  queued := rfl
  options := rfl
  budgets := rfl

lemma Sound.wakeDue (h : p.Sound drawn) : (p.wakeDue now).Sound drawn := ⟨h.orderly.wakeDue, h.accounted⟩

end Pool
end Gateway
