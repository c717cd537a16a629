import Mathlib.Data.List.Count
import Mathlib.Data.List.NodupEquivFin
import Mathlib.Data.List.Rotate
import Gateway.Proofs.Balance.Selection

/-! Idle hosts and the rotation. The cursor moves over all hosts while healthy ones alone are chosen,
so hosts that are out give their turns to the next healthy one. -/
namespace Gateway

namespace Rotation
variable {hosts : List Host} {cursor i k n : Nat} {h : Host}

def healthyAt (hosts : List Host) (i : Nat) : Bool := hosts[i]?.any Host.isHealthy

/-- The positions of healthy hosts, from the cursor on and around. -/
def round (hosts : List Host) (cursor : Nat) : List Nat :=
  (order hosts.length cursor).filter (healthyAt hosts)

lemma healthyAt_eq_true_iff :
    healthyAt hosts i = true ↔ ∃ h, hosts[i]? = some h ∧ h.isHealthy = true := by
  simp [healthyAt, Option.any_eq_true]

lemma lt_of_healthyAt (healthy : healthyAt hosts i = true) : i < hosts.length := by
  obtain ⟨h, at_, -⟩ := healthyAt_eq_true_iff.mp healthy
  exact (List.getElem?_eq_some_iff.mp at_).1

lemma mem_round : i ∈ round hosts cursor ↔ healthyAt hosts i = true := by
  rw [round, List.mem_filter, and_iff_right_iff_imp]
  exact fun healthy => mem_order (lt_of_healthyAt healthy)

lemma order_succ (n cursor : Nat) : order n (cursor + 1) = (order n cursor).rotate 1 := by
  cases n with
  | zero => rfl
  | succ n =>
    have last : (cursor + 1 + n) % (n + 1) = cursor % (n + 1) := by
      rw [Nat.add_assoc, Nat.add_comm 1, Nat.add_mod_right]
    have others : (List.range n).map (fun i => (cursor + (i + 1)) % (n + 1)) =
        (List.range n).map fun i => (cursor + 1 + i) % (n + 1) := by
      simp only [Nat.add_assoc, Nat.add_comm 1]
    rw [order, order, List.range_succ, List.map_append, List.map_singleton, last,
      ← List.range_succ, List.range_succ_eq_map]
    simp [List.rotate_cons_succ, Function.comp_def, others]

lemma order_eq_cons (cursor : Nat) (pos : 0 < n) :
    order n cursor = cursor % n :: (order n cursor).tail := by
  obtain ⟨n, rfl⟩ := Nat.exists_eq_add_of_lt pos
  rw [Nat.zero_add, order, List.range_succ_eq_map]
  rfl

/-- The next round begins behind the position that the cursor left. -/
lemma round_succ_eq (hosts : List Host) (cursor : Nat) : round hosts (cursor + 1) =
    if healthyAt hosts (cursor % hosts.length) then (round hosts cursor).rotate 1
    else round hosts cursor := by
  cases hosts with
  | nil => rfl
  | cons h rest =>
    have first := order_eq_cons cursor (Nat.succ_pos rest.length)
    rw [round, order_succ, round, List.length_cons, first, List.rotate_cons_succ, List.rotate_zero,
      List.filter_append]
    by_cases healthy : healthyAt (h :: rest) (cursor % (rest.length + 1)) = true
    · simp [healthy]
    · simp [healthy]

/-- While the cursor passes healthy hosts each of them is the next one. -/
lemma round_add (healthy : ∀ j < k, healthyAt hosts ((cursor + j) % hosts.length) = true) :
    round hosts (cursor + k) = (round hosts cursor).rotate k := by
  induction k with
  | zero => rw [Nat.add_zero, List.rotate_zero]
  | succ k ih =>
    rw [← Nat.add_assoc, round_succ_eq, if_pos (healthy k (Nat.lt_succ_self k)),
      ih fun j lt => healthy j (Nat.lt_succ_of_lt lt), List.rotate_rotate]

lemma nodup_round : (round hosts cursor).Nodup := by
  refine List.Pairwise.filter _ ((pairwise_order hosts.length cursor).imp fun {i j} lt => ?_)
  rintro rfl
  exact Nat.lt_irrefl _ lt

lemma countP_healthyAt (hosts : List Host) :
    (List.range hosts.length).countP (healthyAt hosts) = hosts.countP Host.isHealthy := by
  induction hosts with
  | nil => rfl
  | cons h rest ih =>
    have behind : healthyAt (h :: rest) ∘ Nat.succ = healthyAt rest := rfl
    have first : healthyAt (h :: rest) 0 = h.isHealthy := rfl
    rw [List.length_cons, List.range_succ_eq_map, List.countP_cons, List.countP_map, behind, ih,
      first, List.countP_cons]

/-- A round visits as many hosts as are healthy, wherever it begins. -/
lemma length_round (hosts : List Host) (cursor : Nat) :
    (round hosts cursor).length = hosts.countP Host.isHealthy := by
  induction cursor with
  | zero =>
    have start : order hosts.length 0 = List.range hosts.length := by
      refine (List.map_congr_left fun i hi => ?_).trans (List.map_id _)
      rw [Nat.zero_add, Nat.mod_eq_of_lt (List.mem_range.mp hi), id]
    rw [round, start, ← List.countP_eq_length_filter, countP_healthyAt]
  | succ cursor ih =>
    rw [round_succ_eq]
    split
    · rw [List.length_rotate, ih]
    · exact ih

/-- Of healthy hosts with the same room the next one is chosen. -/
lemma IsBest.head?_round (best : IsBest hosts cursor i h)
    (equal : ∀ other ∈ hosts, other.isHealthy = true → other.available = h.available) :
    (round hosts cursor).head? = some i := by
  have member : i ∈ round hosts cursor :=
    mem_round.mpr (healthyAt_eq_true_iff.mpr ⟨h, best.at_, best.healthy⟩)
  have inOrder := (pairwise_order hosts.length cursor).filter (healthyAt hosts)
  change (round hosts cursor).Pairwise _ at inOrder
  cases all : round hosts cursor with
  | nil => simp [all] at member
  | cons j rest =>
    rw [all, List.pairwise_cons] at inOrder
    rw [all] at member
    rcases List.mem_cons.mp member with rfl | later
    · rfl
    · obtain ⟨other, at_, healthy⟩ :=
        healthyAt_eq_true_iff.mp (mem_round.mp (all ▸ List.mem_cons_self : j ∈ round hosts cursor))
      have first := best.first j other at_ healthy (equal other (List.mem_of_getElem? at_) healthy)
      exact absurd (inOrder.1 i later) (Nat.not_lt.mpr first)

lemma head?_round_self (healthy : healthyAt hosts (cursor % hosts.length) = true) :
    (round hosts cursor).head? = some (cursor % hosts.length) := by
  have pos : 0 < hosts.length := Nat.zero_lt_of_lt (lt_of_healthyAt healthy)
  rw [round, order_eq_cons cursor pos, List.filter_cons_of_pos healthy, List.head?_cons]

/-- Whose turn it is for so many steps of the cursor. -/
def turns (hosts : List Host) (cursor many : Nat) : List (Option Nat) :=
  (List.range many).map fun k => (round hosts (cursor + k)).head?

lemma mem_turns {many : Nat} (enough : hosts.length ≤ many) (healthy : healthyAt hosts i = true) :
    some i ∈ turns hosts cursor many := by
  have member : i ∈ order hosts.length cursor := mem_order (lt_of_healthyAt healthy)
  obtain ⟨k, small, rfl⟩ := List.mem_map.mp member
  refine List.mem_map.mpr ⟨k, ?_, head?_round_self healthy⟩
  exact List.mem_range.mpr (Nat.lt_of_lt_of_le (List.mem_range.mp small) enough)

/-- Each healthy host has one turn. -/
def EachOnce (hosts : List Host) (turns : List (Option Nat)) : Prop :=
  ∀ i, healthyAt hosts i = true → turns.count (some i) = 1

/-- While the cursor meets healthy hosts alone, they have their turns in order. -/
lemma turns_eq_round {many : Nat} (all : many = hosts.countP Host.isHealthy)
    (met : ∀ k, k + 1 < many → healthyAt hosts ((cursor + k) % hosts.length) = true) :
    turns hosts cursor many = (round hosts cursor).map some := by
  refine List.ext_getElem (by simp [turns, length_round, all]) fun k lt lt' => ?_
  have small : k < (round hosts cursor).length := by simpa using lt'
  have rotated : round hosts (cursor + k) = (round hosts cursor).rotate k :=
    round_add fun j before => met j (by rw [length_round] at small; omega)
  simp [turns, rotated, List.head?_rotate small]

/-- The turn of a host that is out goes to the same host as the next turn. -/
lemma two_le_count_turns {many : Nat} (lt : k + 1 < many)
    (out : healthyAt hosts ((cursor + k) % hosts.length) = false) :
    2 ≤ (turns hosts cursor many).count (round hosts (cursor + k)).head? := by
  have same : round hosts (cursor + (k + 1)) = round hosts (cursor + k) := by
    rw [← Nat.add_assoc, round_succ_eq, out, if_neg nofun]
  have length : (turns hosts cursor many).length = many := by simp [turns]
  have twice : List.Duplicate (round hosts (cursor + k)).head? (turns hosts cursor many) := by
    refine List.duplicate_iff_exists_distinct_get.mpr
      ⟨⟨k, by omega⟩, ⟨k + 1, by omega⟩, Nat.lt_succ_self k, ?_, ?_⟩
    · simp [turns]
    · simp [turns, same]
  exact List.replicate_sublist_iff.mp (List.duplicate_iff_sublist.mp twice)

lemma eachOnce_turns_iff {many : Nat} (all : many = hosts.countP Host.isHealthy) :
    EachOnce hosts (turns hosts cursor many) ↔
      ∀ k, k + 1 < many → healthyAt hosts ((cursor + k) % hosts.length) = true := by
  constructor
  · intro once k lt
    by_contra out
    have twice := two_le_count_turns lt (Bool.eq_false_iff.mpr out)
    cases turn : round hosts (cursor + k) with
    | nil =>
      have none := length_round hosts (cursor + k)
      rw [turn, List.length_nil] at none
      omega
    | cons i rest =>
      rw [turn, List.head?_cons, once i (mem_round.mp (turn ▸ List.mem_cons_self))] at twice
      omega
  · intro met i healthy
    rw [turns_eq_round all met, List.count_map_of_injective _ _ (Option.some_injective _)]
    exact List.count_eq_one_of_mem nodup_round (mem_round.mpr healthy)

/-- Hosts alternate strictly wherever the cursor stands just if none is out or at most one is
left. -/
theorem forall_eachOnce_turns_iff (hosts : List Host) :
    (∀ cursor, EachOnce hosts (turns hosts cursor (hosts.countP Host.isHealthy))) ↔
      (∀ h ∈ hosts, h.isHealthy = true) ∨ hosts.countP Host.isHealthy ≤ 1 := by
  simp only [eachOnce_turns_iff]
  constructor
  · intro met
    by_contra others
    obtain ⟨out, several⟩ := not_or.mp others
    apply out
    intro h hm
    obtain ⟨i, at_⟩ := List.getElem?_of_mem hm
    obtain ⟨lt, -⟩ := List.getElem?_eq_some_iff.mp at_
    have healthy := met i 0 (by omega)
    rw [Nat.add_zero, Nat.mod_eq_of_lt lt] at healthy
    obtain ⟨host, at', healthy⟩ := healthyAt_eq_true_iff.mp healthy
    obtain rfl := Option.some.inj (at_.symm.trans at')
    exact healthy
  · rintro (all | one) cursor k lt
    · have pos : 0 < hosts.length := by
        have le := hosts.countP_le_length (p := Host.isHealthy)
        omega
      have inside := Nat.mod_lt (cursor + k) pos
      refine healthyAt_eq_true_iff.mpr ⟨_, List.getElem?_eq_getElem inside, ?_⟩
      exact all _ (List.getElem_mem inside)
    · omega

/-- The positions below `n` by a cursor in a word, in which sums come round. -/
def orderByWord (n : Nat) (cursor : UInt64) : List Nat :=
  (List.range n).map fun i => ((cursor + UInt64.ofNat i) % UInt64.ofNat n).toNat

/-- The order is the same until the word comes round. -/
lemma orderByWord_eq (few : cursor + n < UInt64.size) :
    orderByWord n (.ofNat cursor) = order n cursor := by
  refine List.map_congr_left fun i hi => ?_
  have lt := List.mem_range.mp hi
  have sum : (UInt64.ofNat cursor + UInt64.ofNat i).toNat = cursor + i := by
    rw [← UInt64.ofNat_add, UInt64.toNat_ofNat_of_lt' (by omega)]
  rw [UInt64.toNat_mod, sum, UInt64.toNat_ofNat_of_lt' (by omega)]

end Rotation

namespace Pool
variable {m : Moment}

/-- The hosts of requests that come one after another, each after a while, and give their leases back
at once. -/
def Moment.visits (m : Moment) : List Nat → List (Option Nat)
  | [] => []
  | wait :: rest =>
    let asked := m.run [.wait wait, .tryLease]
    (asked.pool.live? m.drawn).map (·.host) :: (asked.step (.release m.drawn)).visits rest

/-- Until a time the healthy hosts are idle, with one budget, and no other host is due. -/
structure Moment.Rests (m : Moment) (budget later : Nat) : Prop where
  someHealthy : ∃ h ∈ m.pool.hosts, h.isHealthy = true
  idle : ∀ h ∈ m.pool.hosts, h.isHealthy = true → h.active = 0 ∧ h.budget = budget
  out : ∀ h ∈ m.pool.hosts, h.isHealthy = false →
    h.state = .problem ∧ h.isDue later m.pool.options.delay = false
  fresh : ∀ l ∈ m.pool.leases, l.ticket < m.drawn

@[simp] lemma cursor_wakeOne (p : Pool) : p.wakeOne.cursor = p.cursor := by
  unfold wakeOne
  split <;> rfl

/-- What is leased and given back at once is as it was. -/
lemma release_leased {p : Pool} {i ticket : Nat} {h : Host} (cursor : Nat)
    (at_ : p.hosts[i]? = some h) (fresh : ∀ l ∈ p.leases, l.ticket ≠ ticket) :
    let q : Pool :=
      { p with
        hosts := p.hosts.set i { h with active := h.active + 1 }
        leases := p.leases ++ [{ ticket, host := i, probe := false }]
        cursor }
    q.live? ticket = some { ticket, host := i, probe := false } ∧
      (q.release ticket).1.ledger = p.ledger ∧ (q.release ticket).1.cursor = cursor := by
  intro q
  have live : q.live? ticket = some { ticket, host := i, probe := false } := by
    have others : p.leases.find? (·.ticket = ticket) = none :=
      List.find?_eq_none.mpr fun l hl => by simp [fresh l hl]
    simp [q, live?, List.find?_append, others]
  have leases : (p.leases ++ [({ ticket, host := i, probe := false } : LiveLease)]).filter
      (·.ticket ≠ ticket) = p.leases := by
    simpa using fresh
  have back : (p.hosts.set i { h with active := h.active + 1 }).modify i Host.free = p.hosts := by
    obtain ⟨lt, rfl⟩ := List.getElem?_eq_some_iff.mp at_
    rw [modify_eq_set (List.getElem?_set_self lt), List.set_set]
    exact List.set_getElem_self lt
  have released : (q.release ticket).1 = ({ q with
      hosts := q.hosts.modify i Host.free
      leases := q.leases.filter (·.ticket ≠ ticket) } : Pool).wakeOne := by
    rw [release, live]
    rfl
  rw [released]
  refine ⟨live, ?_, cursor_wakeOne _⟩
  rw [ledger_wakeOne, ledger, ledger, back, leases]

/-- A visit moves the cursor and nothing else of the hosts. -/
lemma Moment.Rests.visit {budget later wait : Nat} (room : 0 < budget)
    (rests : m.Rests budget later) (le : m.now + wait ≤ later) :
    let asked := m.run [.wait wait, .tryLease]
    let after := asked.step (.release m.drawn)
    (asked.pool.live? m.drawn).map (·.host) =
        (Rotation.round m.pool.hosts m.pool.cursor).head? ∧
      after.pool.ledger = m.pool.ledger ∧ after.pool.cursor = m.pool.cursor + 1 := by
  intro asked after
  have picks := picks_of_tryLease m.pool (m.now + wait) m.drawn
  have pool : asked.pool = (m.pool.tryLease (m.now + wait) m.drawn).1 := rfl
  have back : after.pool = (asked.pool.release m.drawn).1 := rfl
  rw [back, pool]
  have available {h : Host} (hm : h ∈ m.pool.hosts) (healthy : h.isHealthy = true) :
      h.available = budget := by
    obtain ⟨idle, rfl⟩ := rests.idle h hm healthy
    rw [Host.available, idle, Nat.sub_zero]
  generalize m.pool.tryLease (m.now + wait) m.drawn = found at picks
  obtain ⟨q, lease⟩ := found
  cases picks with
  | @test i h due =>
    have ill : h.isHealthy = false := by simp [Host.isHealthy, due.problem]
    obtain ⟨-, undue⟩ := rests.out h (List.mem_of_getElem? due.at_) ill
    have waited : m.pool.options.delay ≤ later - h.problemSince :=
      Nat.le_trans due.expired (Nat.sub_le_sub_right le _)
    have isDue := Host.isDue_iff.mpr ⟨due.problem, waited⟩
    rw [undue] at isDue
    cases isDue
  | @turn i h _ best =>
    have hm := List.mem_of_getElem? best.at_
    obtain ⟨live, ledger, cursor⟩ := release_leased (m.pool.cursor + 1) best.at_
      fun l hl => Nat.ne_of_lt (rests.fresh l hl)
    refine ⟨?_, ledger, cursor⟩
    rw [live, best.head?_round fun other hm' healthy =>
      (available hm' healthy).trans (available hm best.healthy).symm]
    rfl
  | nothing _ full =>
    obtain ⟨h, hm, healthy⟩ := rests.someHealthy
    have none := full h hm healthy
    rw [available hm healthy] at none
    omega

lemma Moment.Rests.congr {budget later : Nat} (rests : m.Rests budget later) {after : Moment}
    (ledger : after.pool.ledger = m.pool.ledger) (options : after.pool.options = m.pool.options)
    (drawn : m.drawn ≤ after.drawn) : after.Rests budget later := by
  have hosts : after.pool.hosts = m.pool.hosts := congrArg Ledger.hosts ledger
  have leases : after.pool.leases = m.pool.leases := congrArg Ledger.leases ledger
  refine ⟨?_, ?_, ?_, fun l hl => ?_⟩
  · exact hosts ▸ rests.someHealthy
  · exact hosts ▸ rests.idle
  · rw [hosts, options]
    exact rests.out
  · rw [leases] at hl
    exact Nat.lt_of_lt_of_le (rests.fresh l hl) drawn

/-- Each visit is to the next healthy host, and the cursor moves on by one host, healthy or not. -/
theorem Moment.visits_eq {budget later : Nat} (room : 0 < budget) (waits : List Nat)
    (rests : m.Rests budget later) (le : m.now + waits.sum ≤ later) :
    m.visits waits = Rotation.turns m.pool.hosts m.pool.cursor waits.length := by
  induction waits generalizing m with
  | nil => rfl
  | cons wait rest ih =>
    rw [List.sum_cons, ← Nat.add_assoc] at le
    obtain ⟨first, ledger, cursor⟩ := rests.visit room (Nat.le_trans (Nat.le_add_right ..) le)
    have hosts : ((m.run [.wait wait, .tryLease]).step (.release m.drawn)).pool.hosts =
        m.pool.hosts := congrArg Ledger.hosts ledger
    have others := ih (rests.congr ledger (by simp [run]) (Nat.le_succ m.drawn)) le
    rw [cursor, hosts] at others
    rw [visits, first, others, Rotation.turns, Rotation.turns, List.length_cons,
      List.range_succ_eq_map, List.map_cons, List.map_map]
    congr 1
    refine List.map_congr_left fun k _ => ?_
    rw [Nat.add_right_comm, Nat.add_assoc]
    rfl

/-- Requests that come one after another take turns over the healthy hosts. Over as many requests as
there are hosts none is missed. As many requests as there are healthy hosts visit each of them once
just if the cursor meets no host that is out before the last request: the turn of such a host goes
to the same host as the next turn. -/
theorem Moment.visits_turns (m : Moment) (waits : List Nat) (budget : Nat) (room : 0 < budget)
    (rests : m.Rests budget (m.now + waits.sum)) :
    let hosts := m.pool.hosts
    m.visits waits = Rotation.turns hosts m.pool.cursor waits.length ∧
      (hosts.length ≤ waits.length →
        ∀ i, Rotation.healthyAt hosts i = true → some i ∈ m.visits waits) ∧
      (waits.length = hosts.countP Host.isHealthy →
        (Rotation.EachOnce hosts (m.visits waits) ↔ ∀ k, k + 1 < waits.length →
          Rotation.healthyAt hosts ((m.pool.cursor + k) % hosts.length) = true)) := by
  intro hosts
  rw [visits_eq room waits rests (Nat.le_refl _)]
  exact ⟨rfl, fun enough _ healthy => Rotation.mem_turns enough healthy,
    fun all => Rotation.eachOnce_turns_iff all⟩

/-- One of three hosts is out. The two others have a turn each, but then the first of them has
two. -/
theorem three_hosts_one_out :
    let host (authority : String) : Host := { uri := {}, authority, basePath := "", budget := 5 }
    let pool : Pool := { name := "api", hosts := [host "h0:80", host "h1:80", host "h2:80"] }
    let m := Moment.run { pool } [.tryLease, .reportFailure 0, .release 0]
    let n := m.run [.tryLease, .release 1, .tryLease, .release 2]
    m.Rests 5 m.now ∧ m.visits [0, 0] = [some 1, some 2] ∧
      n.Rests 5 n.now ∧ n.visits [0, 0] = [some 1, some 1] ∧
      ¬Rotation.EachOnce n.pool.hosts (n.visits [0, 0]) := by
  intro host pool m n
  have rests : m.Rests 5 m.now := ⟨by decide, by decide, by decide, by decide⟩
  have rests' : n.Rests 5 n.now := ⟨by decide, by decide, by decide, by decide⟩
  have turns := m.visits_turns [0, 0] 5 (by decide) rests
  have turns' := n.visits_turns [0, 0] 5 (by decide) rests'
  refine ⟨rests, turns.1.trans (by decide), rests', turns'.1.trans (by decide), fun once => ?_⟩
  have met := (turns'.2.2 (by decide)).mp once 0 (by decide)
  exact absurd met (by decide)

section Words

/-! The cursor counts choices without a bound. A word of 64 bits is enough for it, as long as the steps and
the hosts are few enough for the word not to come round. -/

variable {p : Pool} {now ticket : Nat}

lemma cursor_tryLease_le (p : Pool) (now ticket : Nat) :
    (p.tryLease now ticket).1.cursor ≤ p.cursor + 1 := by
  have picks := picks_of_tryLease p now ticket
  generalize p.tryLease now ticket = found at picks
  obtain ⟨q, lease⟩ := found
  cases picks with
  | test => exact Nat.le_succ _
  | turn => exact Nat.le_refl _
  | nothing =>
    dsimp only
    split
    · exact Nat.le_succ _
    · exact Nat.le_refl _

lemma cursor_look_le : (p.look now ticket).1.cursor ≤ p.cursor + 1 := by
  have le := p.cursor_tryLease_le now ticket
  unfold look
  split
  · next found => rwa [found] at le
  · next found =>
    rw [found] at le
    split <;> exact le

lemma cursor_settleIn_le : (p.settleIn now ticket).1.cursor ≤ p.cursor + 2 := by
  have le := cursor_tryLease_le { p with spare := false } now ticket
  unfold settleIn
  split
  · split
    · next found =>
      rw [found] at le
      exact Nat.le_succ_of_le le
    · next q found =>
      rw [found] at le
      split
      · exact Nat.le_trans cursor_look_le (Nat.succ_le_succ le)
      · exact Nat.le_succ_of_le le
  · exact Nat.le_succ_of_le cursor_look_le

lemma cursor_enter_le : (p.enter now ticket).1.cursor ≤ p.cursor + 3 := by
  have le := p.cursor_tryLease_le now ticket
  have more {cursor : Nat} (le : cursor ≤ p.cursor + 1) : cursor ≤ p.cursor + 3 := by omega
  unfold enter
  split
  · next found =>
    rw [found] at le
    exact more le
  · next q found =>
    rw [found] at le
    split
    · exact more le
    · split
      · exact more le
      · exact Nat.le_trans cursor_settleIn_le (Nat.add_le_add_right le 2)

lemma cursor_cancel : (p.cancel ticket).cursor = p.cursor := by
  unfold cancel
  split
  · rfl
  · split
    · rfl
    · split
      · exact cursor_wakeOne _
      · rfl

lemma cursor_release : (p.release ticket).1.cursor = p.cursor := by
  unfold release
  split
  · rfl
  · exact cursor_wakeOne _

lemma cursor_reportFailure : (p.reportFailure now ticket).1.cursor = p.cursor := by
  unfold reportFailure
  split <;> rfl

lemma cursor_reportSuccess : (p.reportSuccess ticket).1.cursor = p.cursor := by
  unfold reportSuccess
  split
  · rfl
  · split <;> rfl

/-- A step makes at most three choices. -/
lemma Moment.cursor_step_le (m : Moment) (a : Act) : (m.step a).pool.cursor ≤ m.pool.cursor + 3 := by
  cases a with
  | wait | wakeDue => exact Nat.le_add_right ..
  | tryLease => exact Nat.le_trans (cursor_tryLease_le ..) (Nat.add_le_add_left (by decide) _)
  | enter => exact cursor_enter_le
  | look k =>
    unfold step
    dsimp only
    split
    · exact Nat.le_succ_of_le cursor_settleIn_le
    · exact Nat.le_add_right ..
  | cancel ticket => exact Nat.le_trans cursor_cancel.le (Nat.le_add_right ..)
  | reportFailure ticket => exact Nat.le_trans cursor_reportFailure.le (Nat.le_add_right ..)
  | reportSuccess ticket => exact Nat.le_trans cursor_reportSuccess.le (Nat.le_add_right ..)
  | release ticket => exact Nat.le_trans cursor_release.le (Nat.le_add_right ..)

lemma Moment.cursor_run_le (m : Moment) (acts : List Act) :
    (m.run acts).pool.cursor ≤ m.pool.cursor + 3 * acts.length := by
  induction acts generalizing m with
  | nil => exact Nat.le_refl _
  | cons a rest ih =>
    have first := m.cursor_step_le a
    have others := ih (m.step a)
    rw [List.length_cons]
    change ((m.step a).run rest).pool.cursor ≤ _
    omega

/-- In a run of so few steps a word is enough for the cursor. -/
theorem Moment.order_eq_orderByWord (m : Moment) (acts : List Act) (n : Nat)
    (few : m.pool.cursor + 3 * acts.length + n < UInt64.size) :
    Rotation.orderByWord n (.ofNat (m.run acts).pool.cursor) =
      Rotation.order n (m.run acts).pool.cursor := by
  have le := m.cursor_run_le acts
  exact Rotation.orderByWord_eq (by omega)

end Words

end Pool
end Gateway
