import Gateway.Proofs.Balance.Steps

/-! Tests of hosts that are on their way. A host has one at most, but a failure that another lease
reports in the meantime makes it due for one more. -/
namespace Gateway.Pool

namespace Ledger
variable {b : Ledger} {i j ticket : Nat} {l : LiveLease} {f : Host → Host}

/-- A test of host `i` without an outcome. -/
def isOpenAt (i : Nat) (l : LiveLease) : Bool := l.host = i && l.isOpenProbe

/-- The tests of host `i` that have no outcome yet. -/
def openProbes (b : Ledger) (i : Nat) : Nat := b.leases.countP (isOpenAt i)

/-- The open tests of host `i` but for those of a ticket. -/
def otherProbes (b : Ledger) (i ticket : Nat) : Nat := (b.without ticket).countP (isOpenAt i)

def IsProblem (b : Ledger) (i : Nat) : Prop := ∃ h, b.hosts[i]? = some h ∧ h.state = .problem

/-- One when the act is a failure, reported for host `i` by a lease that is not an open test of it,
while a test is open. -/
def overlap (b : Ledger) (i : Nat) : Act → Nat
  | .reportFailure ticket =>
    match b.live? ticket with
    | some l => if l.host = i ∧ l.isOpenProbe = false ∧ 0 < b.openProbes i then 1 else 0
    | none => 0
  | _ => 0

lemma otherProbes_le (b : Ledger) (i ticket : Nat) : b.otherProbes i ticket ≤ b.openProbes i :=
  List.Sublist.countP_le List.filter_sublist

/-- The test of the ticket's own lease is not among the others. -/
lemma otherProbes_lt (live : b.live? ticket = some l) (open_ : isOpenAt i l = true) :
    b.otherProbes i ticket < b.openProbes i := by
  have own : 0 < (b.leases.filter fun l => !decide (l.ticket ≠ ticket)).countP (isOpenAt i) := by
    refine List.countP_pos_iff.mpr ⟨l, List.mem_filter.mpr ⟨List.mem_of_find?_eq_some live, ?_⟩, open_⟩
    have named := List.find?_some live
    simpa using named
  have split := List.countP_eq_countP_filter_add b.leases (isOpenAt i) (·.ticket ≠ ticket)
  unfold otherProbes openProbes without
  omega

/-- Settled leases are no open tests. -/
lemma openProbes_settled (hosts : List Host) :
    openProbes ⟨hosts, b.settled ticket⟩ i = b.otherProbes i ticket := by
  rw [openProbes, settled, otherProbes, without, List.countP_map, List.countP_filter]
  refine List.countP_congr fun l _ => ?_
  by_cases named : l.ticket = ticket
  · simp [named, isOpenAt, LiveLease.isOpenProbe]
  · simp [named]

lemma openProbes_without (hosts : List Host) :
    openProbes ⟨hosts, b.without ticket⟩ i = b.otherProbes i ticket := rfl

/-- A failure leaves at most the tests there could be besides one, unless it overlaps with a test. -/
lemma otherProbes_le_of_failed {c : Nat} (live : b.live? ticket = some l) (same : l.host = i)
    (bound : b.openProbes i ≤ c + 1) :
    b.otherProbes i ticket ≤ c + b.overlap i (.reportFailure ticket) := by
  have le := b.otherProbes_le i ticket
  by_cases open_ : l.isOpenProbe = true
  · have lt := otherProbes_lt live (i := i) (by simp [isOpenAt, same, open_])
    omega
  · by_cases none : b.openProbes i = 0
    · omega
    · have one : b.overlap i (.reportFailure ticket) = 1 := by
        rw [overlap, live]
        exact if_pos ⟨same, Bool.eq_false_iff.mpr open_, Nat.pos_of_ne_zero none⟩
      omega

lemma isProblem_modify_of_ne (leases : List LiveLease) (ne : j ≠ i) :
    IsProblem ⟨b.hosts.modify j f, leases⟩ i ↔ b.IsProblem i := by
  simp only [IsProblem, List.getElem?_modify_ne f b.hosts ne]

/-- What makes no host a problem host leaves none. -/
lemma isProblem_of_modify {leases : List LiveLease}
    (keep : ∀ h : Host, (f h).state = .problem → h.state = .problem)
    (h : IsProblem ⟨b.hosts.modify j f, leases⟩ i) : b.IsProblem i := by
  obtain ⟨host, at_, problem⟩ := h
  rw [List.getElem?_modify, Option.map_eq_map] at at_
  obtain ⟨old, before, rfl⟩ := Option.map_eq_some_iff.mp at_
  refine ⟨old, before, ?_⟩
  split at problem
  · exact keep old problem
  · exact problem

lemma not_isProblem_modify {leases : List LiveLease} (h : ∀ h : Host, (f h).state ≠ .problem) :
    ¬IsProblem ⟨b.hosts.modify i f, leases⟩ i := by
  rintro ⟨host, at_, problem⟩
  rw [List.getElem?_modify_eq, Option.map_eq_map] at at_
  obtain ⟨old, -, rfl⟩ := Option.map_eq_some_iff.mp at_
  exact h old problem

/-- Not more tests are open than one and `c` more, and only `c` when the host is due for another. -/
structure Within (b : Ledger) (i c : Nat) : Prop where
  bound : b.openProbes i ≤ c + 1
  problem : b.IsProblem i → b.openProbes i ≤ c

end Ledger

open Ledger
variable {b b' : Ledger} {a : Act} {now retry : Nat}

/-- Each overlap makes room for one more test. -/
theorem Shift.within (h : Shift now retry a b b') (i c : Nat) (hb : b.Within i c) :
    b'.Within i (c + b.overlap i a) := by
  obtain ⟨bound, problem⟩ := hb
  cases h with
  | rest => exact ⟨by omega, fun h => Nat.le_add_right_of_le (problem h)⟩
  | @leased _ j host _ ticket at_ healthy room =>
    have count : openProbes ⟨b.hosts.modify j Host.claim,
        b.leases ++ [{ ticket, host := j, probe := false }]⟩ i = b.openProbes i := by
      simp [openProbes, isOpenAt, LiveLease.isOpenProbe]
    refine ⟨by omega, fun h => ?_⟩
    have before := problem (isProblem_of_modify (f := Host.claim) (fun _ state => state) h)
    omega
  | @probed _ j host _ ticket at_ due room =>
    have count : openProbes ⟨b.hosts.modify j fun h => h.beginProbe.claim,
        b.leases ++ [{ ticket, host := j, probe := true }]⟩ i =
          b.openProbes i + if j = i then 1 else 0 := by
      simp [openProbes, isOpenAt, LiveLease.isOpenProbe]
    by_cases same : j = i
    · subst same
      have tested : b.IsProblem j := by
        rw [Host.isDue, Bool.and_eq_true, decide_eq_true_eq] at due
        exact ⟨host, at_, due.1⟩
      have before := problem tested
      rw [if_pos rfl] at count
      exact ⟨by omega, fun h => absurd h (not_isProblem_modify fun _ => nofun)⟩
    · rw [if_neg same] at count
      refine ⟨by omega, fun h => ?_⟩
      have before := problem ((isProblem_modify_of_ne _ same).mp h)
      omega
  | @failed _ l host ticket live at_ =>
    have le := b.otherProbes_le i ticket
    constructor
    · rw [openProbes_settled]
      omega
    · intro h
      rw [openProbes_settled]
      by_cases same : l.host = i
      · exact otherProbes_le_of_failed live same bound
      · have before := problem ((isProblem_modify_of_ne _ same).mp h)
        omega
  | @succeeded _ l host ticket live at_ probe =>
    have le := b.otherProbes_le i ticket
    constructor
    · rw [openProbes_settled]
      omega
    · intro h
      rw [openProbes_settled]
      by_cases same : l.host = i
      · subst same
        exact absurd h (not_isProblem_modify fun _ => nofun)
      · have before := problem ((isProblem_modify_of_ne _ same).mp h)
        omega
  | @released _ l ticket live =>
    have le := b.otherProbes_le i ticket
    constructor
    · rw [openProbes_without]
      omega
    · intro h
      rw [openProbes_without]
      by_cases open_ : l.isOpenProbe = true
      · by_cases same : l.host = i
        · have lt := otherProbes_lt live (i := i) (by simp [isOpenAt, same, open_])
          omega
        · have before := problem ((isProblem_modify_of_ne _ same).mp h)
          omega
      · rw [if_neg open_] at h
        have before := problem (isProblem_of_modify (f := fun h => (id h).free)
          (fun _ state => state) h)
        omega

variable {m : Moment} {acts : List Act}

/-- How often along a run a failure overlaps with a test of host `i`. -/
def Moment.overlaps (m : Moment) (i : Nat) : List Act → Nat
  | [] => 0
  | a :: rest => m.pool.ledger.overlap i a + (m.step a).overlaps i rest

theorem Moment.run_within (acts : List Act) {m : Moment} {i c : Nat} (h : m.pool.ledger.Within i c) :
    (m.run acts).pool.ledger.Within i (c + m.overlaps i acts) := by
  induction acts generalizing m c with
  | nil => exact h
  | cons a rest ih =>
    have next := ih ((m.step_shift a).within i c h)
    rw [Nat.add_assoc] at next
    exact next

/-- However a pool is used and however time goes on, a host has at most one more test without an
outcome than there were failures reported for it by other leases during its tests. -/
theorem openProbes_le (name : String) (hosts : List Host) (options : PoolOptions) (acts : List Act)
    (i : Nat) :
    let start : Moment := { pool := { name, hosts, options } }
    (start.run acts).pool.ledger.openProbes i ≤ 1 + start.overlaps i acts := by
  intro start
  have none : start.pool.ledger.openProbes i = 0 := rfl
  have first : start.pool.ledger.Within i 0 := ⟨by omega, fun _ => by omega⟩
  have bound := (start.run_within acts first).bound
  omega

/-- Two requests are on their way to a host when the first of them fails. The second one fails while a
third tests the host, and a fourth comes to test it as well. -/
theorem second_probe_after_late_failure :
    let host : Host := { uri := {}, authority := "h0:80", basePath := "", budget := 5 }
    let start : Moment := { pool := { name := "api", hosts := [host] } }
    let acts : List Act := [.tryLease, .tryLease, .reportFailure 0, .wait 10000, .tryLease,
      .reportFailure 1, .wait 10000, .tryLease]
    (start.run acts).pool.ledger.openProbes 0 = 2 ∧ start.overlaps 0 acts = 1 ∧
      (start.run acts).pool.ledger.openProbes 0 ≤ 1 + start.overlaps 0 acts := by
  intro host start acts
  exact ⟨by decide, by decide, openProbes_le "api" [host] {} acts 0⟩

end Gateway.Pool
