import Gateway.Proofs.Balance.Accounts
import Gateway.Proofs.Balance.Probes

/-! Hosts that are not healthy. None is forgotten: a problem host is due for a test after its delay,
and a host that is not due because it is tested has the lease of that test somewhere. -/
namespace Gateway.Pool

namespace Ledger
variable {b : Ledger} {now retry i ticket : Nat} {l : LiveLease} {h : Host}

/-- The failure of a host lies in the past. A test of it began when its delay was over, and has not
come to an outcome. -/
structure Attends (b : Ledger) (now retry i : Nat) (h : Host) : Prop where
  past : h.state ≠ .healthy → h.problemSince ≤ now
  expired : h.state = .probing → h.problemSince + retry ≤ now
  tested : h.state = .probing → 0 < b.openProbes i

def AttendsAll (b : Ledger) (now retry : Nat) : Prop :=
  ∀ (i : Nat) (h : Host), b.hosts[i]? = some h → b.Attends now retry i h

/-- A host that is not tested needs no test. -/
lemma attends_of_untested {s : HostState} (state : h.state = s) (untested : s ≠ .probing)
    (past : s ≠ .healthy → h.problemSince ≤ now) : b.Attends now retry i h := by
  subst state
  exact ⟨past, fun probing => absurd probing untested, fun probing => absurd probing untested⟩

lemma attendsAll_of_healthy (h : ∀ h ∈ b.hosts, h.state = .healthy) : b.AttendsAll now retry := by
  intro i host at_
  have healthy := h host (List.mem_of_getElem? at_)
  exact attends_of_untested healthy (by decide) fun ill => absurd rfl ill

lemma AttendsAll.mono (h : b.AttendsAll now retry) {later : Nat} (le : now ≤ later) :
    b.AttendsAll later retry :=
  fun i host at_ =>
    have before := h i host at_
    { past := fun state => Nat.le_trans (before.past state) le
      expired := fun state => Nat.le_trans (before.expired state) le
      tested := before.tested }

/-- A lease that is no open test of the host is none of its open tests. -/
lemma otherProbes_eq (once : b.Distinct) (live : b.live? ticket = some l)
    (h : isOpenAt i l = false) : b.otherProbes i ticket = b.openProbes i := by
  obtain ⟨-, before, after, all, rest⟩ := once.exists_of_live live
  rw [otherProbes, openProbes, rest, all, List.countP_append, List.countP_append,
    List.countP_cons_of_neg (by simp [h])]

/-- Hosts but one keep their tests, and that one is attended to. -/
lemma AttendsAll.modify (hb : b.AttendsAll now retry) {f : Host → Host} {leases : List LiveLease}
    (one : ∀ old, b.hosts[i]? = some old → Attends ⟨b.hosts.modify i f, leases⟩ now retry i (f old))
    (others : ∀ j, j ≠ i → b.openProbes j ≤ openProbes ⟨b.hosts.modify i f, leases⟩ j) :
    AttendsAll ⟨b.hosts.modify i f, leases⟩ now retry := by
  intro j host at_
  obtain ⟨old, found, rfl⟩ := exists_of_modify at_
  have before := hb j old found
  split
  · next same =>
    subst same
    exact one old found
  · next other =>
    exact { before with
      tested := fun state => Nat.lt_of_lt_of_le (before.tested state) (others j fun e => other e.symm) }

end Ledger

open Ledger
variable {b b' : Ledger} {a : Act} {now retry ticket i : Nat} {p : Pool} {h : Host}

/-- No step forgets a host. -/
theorem Shift.attendsAll (h : Shift now retry a b b') (once : b.Distinct)
    (hb : b.AttendsAll now retry) : b'.AttendsAll now retry := by
  have elsewhere {l : LiveLease} {j : Nat} (other : j ≠ l.host) : isOpenAt j l = false := by
    simp [isOpenAt, other.symm]
  cases h with
  | rest => exact hb
  | @leased _ i host _ ticket at_ healthy room =>
    have more (j : Nat) : b.openProbes j ≤ openProbes ⟨b.hosts.modify i Host.claim,
        b.leases ++ [{ ticket, host := i, probe := false }]⟩ j := by
      simp [openProbes]
    refine hb.modify (fun old found => ?_) fun j _ => more j
    have before := hb i old found
    exact ⟨before.past, before.expired, fun state => Nat.lt_of_lt_of_le (before.tested state) (more i)⟩
  | @probed _ i host _ ticket at_ due room =>
    have count (j : Nat) : openProbes ⟨b.hosts.modify i fun h => h.beginProbe.claim,
        b.leases ++ [{ ticket, host := i, probe := true }]⟩ j =
          b.openProbes j + if i = j then 1 else 0 := by
      simp [openProbes, isOpenAt, LiveLease.isOpenProbe]
    refine hb.modify (fun old found => ?_) fun j _ => by rw [count]; exact Nat.le_add_right ..
    obtain rfl := Option.some.inj (at_.symm.trans found)
    simp only [Host.isDue, Bool.and_eq_true, decide_eq_true_eq] at due
    obtain ⟨problem, waited⟩ := due
    have past := (hb i host at_).past (by rw [problem]; decide)
    refine ⟨fun _ => past, fun _ => ?_, fun _ => ?_⟩
    · change host.problemSince + retry ≤ now
      omega
    · rw [count, if_pos rfl]
      exact Nat.succ_pos _
  | @failed _ l host ticket live at_ =>
    refine hb.modify (fun old found => attends_of_untested (s := .problem) rfl (by decide)
      fun _ => Nat.le_refl _)
      fun j other => Nat.le_of_eq ?_
    rw [openProbes_settled, otherProbes_eq once live (elsewhere other)]
  | @succeeded _ l host ticket live at_ probe =>
    refine hb.modify (fun old found => attends_of_untested (s := .healthy) rfl (by decide)
      fun ill => absurd rfl ill)
      fun j other => Nat.le_of_eq ?_
    rw [openProbes_settled, otherProbes_eq once live (elsewhere other)]
  | @released _ l ticket live =>
    refine hb.modify (fun old found => ?_) fun j other => Nat.le_of_eq ?_
    · have before := hb l.host old found
      split
      · -- Without its test the host is a problem host again, and its delay is over.
        unfold Host.abandonProbe
        split
        · next probing =>
          exact attends_of_untested (s := .problem) rfl (by decide) fun _ =>
            Nat.le_trans (Nat.le_add_right ..) (before.expired probing)
        · next other => exact attends_of_untested rfl other before.past
      · next closed =>
        refine ⟨before.past, before.expired, fun state => ?_⟩
        rw [openProbes_without, otherProbes_eq once live (by simp [isOpenAt, closed])]
        exact before.tested state
    · rw [openProbes_without, otherProbes_eq once live (elsewhere other)]

lemma Moment.step_attendsAll {m : Moment} (once : m.pool.ledger.Distinct)
    (h : m.pool.ledger.AttendsAll m.now m.pool.options.delay) (a : Act) :
    (m.step a).pool.ledger.AttendsAll (m.step a).now (m.step a).pool.options.delay := by
  have shifted := (m.step_shift a).attendsAll once h
  rw [m.options_step]
  cases a with
  | wait milliseconds => exact h.mono (Nat.le_add_right ..)
  | look k =>
    have still : (m.step (.look k)).now = m.now := by
      unfold step
      dsimp only
      split <;> rfl
    rwa [still]
  | _ => exact shifted

theorem Moment.run_attendsAll (acts : List Act) {m : Moment} (orderly : m.pool.Orderly m.drawn)
    (h : m.pool.ledger.AttendsAll m.now m.pool.options.delay) :
    (m.run acts).pool.ledger.AttendsAll (m.run acts).now (m.run acts).pool.options.delay := by
  induction acts generalizing m with
  | nil => exact h
  | cons a rest ih => exact ih (step_orderly orderly a) (step_attendsAll orderly.lease_once h a)

/-- A due host with room is not passed over: the next request tests it, or one that is due too. -/
lemma exists_test_of_due (hm : h ∈ p.hosts) (due : h.isDue now p.options.delay = true)
    (room : 0 < h.available) :
    ∃ lease, (p.tryLease now ticket).2 = some lease ∧ lease.probe = true := by
  cases first : p.dueHost? now with
  | none =>
    have skipped := List.findIdx?_eq_none_iff.mp first h hm
    simp [due, room] at skipped
  | some i =>
    obtain ⟨host, at_, -, -⟩ := exists_of_dueHost first
    exact ⟨⟨ticket, host.authority, host.basePath, true⟩, by simp [tryLease, first, at_, grant], rfl⟩

/-- However a pool is used and however time goes on, a host that is not healthy is a problem host, to
be tested by the next request after its delay, or has a test on its way without an outcome. -/
theorem problem_or_tested (name : String) (hosts : List Host) (options : PoolOptions)
    (healthy : ∀ h ∈ hosts, h.state = .healthy) (acts : List Act) (i : Nat) (h : Host) :
    let m := Moment.run { pool := { name, hosts, options } } acts
    m.pool.hosts[i]? = some h → h.state ≠ .healthy →
      (h.state = .problem ∧ h.problemSince ≤ m.now ∧
        ∀ later, h.problemSince + options.delay ≤ later → h.isDue later options.delay = true ∧
          (0 < h.available → ∀ ticket, ∃ lease,
            (m.pool.tryLease later ticket).2 = some lease ∧ lease.probe = true)) ∨
      (h.state = .probing ∧ ∃ l ∈ m.pool.leases, l.host = i ∧ l.probe = true ∧ l.settled = false) := by
  intro m at_ ill
  let start : Moment := { pool := { name, hosts, options } }
  have attended : m.pool.ledger.AttendsAll m.now m.pool.options.delay :=
    start.run_attendsAll acts (orderly_start name hosts options) (attendsAll_of_healthy healthy)
  have same : m.pool.options = options := start.options_run acts
  have host := attended i h at_
  cases state : h.state with
  | healthy => exact absurd state ill
  | problem =>
    refine .inl ⟨rfl, host.past ill, fun later expired => ?_⟩
    have due : h.isDue later options.delay = true := by
      simp only [Host.isDue, state, decide_true, Bool.true_and, decide_eq_true_eq]
      omega
    refine ⟨due, fun room ticket => ?_⟩
    exact exists_test_of_due (List.mem_of_getElem? at_) (by rwa [same]) room
  | probing =>
    obtain ⟨l, member, open_⟩ := List.countP_pos_iff.mp (host.tested state)
    simp only [isOpenAt, LiveLease.isOpenProbe, Bool.and_eq_true, decide_eq_true_eq,
      Bool.not_eq_true'] at open_
    exact .inr ⟨rfl, l, member, open_⟩

/-- The only host of a pool fails twice, the second time in a test that is then given back. The next
test, after one more delay, is on its way. -/
theorem lone_host_tested :
    let host : Host := { uri := {}, authority := "h0:80", basePath := "", budget := 5 }
    let acts : List Act := [.tryLease, .reportFailure 0, .wait 10000, .tryLease, .reportFailure 1,
      .release 1, .wait 10000, .tryLease]
    let m := Moment.run { pool := { name := "api", hosts := [host] } } acts
    let tested : Host := { host with active := 2, state := .probing, problemSince := 10000 }
    (∀ h ∈ [host], h.state = .healthy) ∧ m.pool.hosts[0]? = some tested ∧
      ∃ l ∈ m.pool.leases, l.host = 0 ∧ l.probe = true ∧ l.settled = false := by
  intro host acts m tested
  have healthy : ∀ h ∈ [host], h.state = .healthy := by decide
  have at_ : m.pool.hosts[0]? = some tested := by decide
  obtain ⟨problem, -⟩ | ⟨-, lease⟩ := problem_or_tested "api" [host] {} healthy acts 0 tested at_ nofun
  · cases problem
  · exact ⟨healthy, at_, lease⟩

end Gateway.Pool
