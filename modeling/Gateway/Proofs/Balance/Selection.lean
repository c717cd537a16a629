import Mathlib.Data.List.Induction
import Gateway.Proofs.Balance.Accounts
import Gateway.Proofs.Balance.Leases

/-! Which host a look for a connection goes to, and which hosts it passes over for how long. -/
namespace Gateway

lemma Host.isDue_iff {h : Host} {now retry : Nat} :
    h.isDue now retry = true ↔ h.state = .problem ∧ retry ≤ now - h.problemSince := by
  rw [Host.isDue, Bool.and_eq_true, decide_eq_true_eq, decide_eq_true_eq, ge_iff_le]

namespace Rotation
variable {hosts : List Host} {cursor i k n : Nat} {best : Nat × Nat} {list : List (Nat × Nat)}

/-- How many steps a position is ahead of the cursor. -/
def ahead (n cursor i : Nat) : Nat := (i + n - cursor % n) % n

lemma ahead_order (lt : k < n) : ahead n cursor ((cursor + k) % n) = k := by
  have small : cursor % n < n := Nat.mod_lt _ (by omega)
  have start : (cursor + k) % n = (cursor % n + k) % n := (Nat.mod_add_mod cursor n k).symm
  rw [ahead, start]
  by_cases wraps : cursor % n + k < n
  · rw [Nat.mod_eq_of_lt wraps, show cursor % n + k + n - cursor % n = k + n by omega,
      Nat.add_mod_right, Nat.mod_eq_of_lt lt]
  · rw [Nat.mod_eq_sub_mod (Nat.not_lt.mp wraps),
      Nat.mod_eq_of_lt (show cursor % n + k - n < n by omega),
      show cursor % n + k - n + n - cursor % n = k by omega, Nat.mod_eq_of_lt lt]

/-- The order is that of the steps ahead of the cursor. -/
lemma pairwise_order (n cursor : Nat) :
    (order n cursor).Pairwise fun i j => ahead n cursor i < ahead n cursor j := by
  rw [order, List.pairwise_map]
  refine List.pairwise_lt_range.imp_of_mem fun {a b} ha hb lt => ?_
  rwa [ahead_order (List.mem_range.mp ha), ahead_order (List.mem_range.mp hb)]

/-- The best candidate has more room than those before it, and no less than those after it. -/
lemma split_of_foldl_better (h : list.foldl better none = some best) :
    ∃ before after, list = before ++ best :: after ∧ (∀ c ∈ before, c.2 < best.2) ∧
      ∀ c ∈ after, c.2 ≤ best.2 := by
  induction list using List.reverseRecOn generalizing best with
  | nil => cases h
  | append_singleton rest c ih =>
    rw [List.foldl_append, List.foldl_cons, List.foldl_nil] at h
    cases sofar : rest.foldl better none with
    | none =>
      have empty : rest = [] := by
        cases rest with
        | nil => rfl
        | cons d more =>
          have found : (more.foldl better (better none d)).isSome = true :=
            foldl_better_isSome (better_isSome none d)
          rw [List.foldl_cons] at sofar
          rw [sofar] at found
          cases found
      subst empty
      rw [List.foldl_nil] at h
      obtain rfl : c = best := Option.some.inj h
      exact ⟨[], [], rfl, nofun, nofun⟩
    | some b =>
      obtain ⟨before, after, rfl, less, atMost⟩ := ih sofar
      rw [sofar, better] at h
      split at h
      · next more =>
        obtain rfl := Option.some.inj h
        refine ⟨before ++ b :: after, [], rfl, fun d hd => ?_, nofun⟩
        rcases List.mem_append.mp hd with hd | hd
        · exact Nat.lt_trans (less d hd) more
        · rcases List.mem_cons.mp hd with rfl | hd
          · exact more
          · exact Nat.lt_of_le_of_lt (atMost d hd) more
      · next notMore =>
        obtain rfl := Option.some.inj h
        refine ⟨before, after ++ [c], by simp, less, fun d hd => ?_⟩
        rcases List.mem_append.mp hd with hd | hd
        · exact atMost d hd
        · rw [List.mem_singleton.mp hd]
          exact Nat.not_lt.mp notMore

/-- In a list that is in order the best candidate is the first of those with the most room. -/
lemma first_of_foldl_better {rank : Nat × Nat → Nat}
    (inOrder : list.Pairwise fun c d => rank c < rank d) (h : list.foldl better none = some best) :
    best ∈ list ∧ ∀ c ∈ list, c.2 ≤ best.2 ∧ (c.2 = best.2 → rank best ≤ rank c) := by
  obtain ⟨before, after, rfl, less, atMost⟩ := split_of_foldl_better h
  rw [List.pairwise_append, List.pairwise_cons] at inOrder
  refine ⟨List.mem_append_right _ List.mem_cons_self, fun c hc => ?_⟩
  rcases List.mem_append.mp hc with hc | hc
  · have fewer := less c hc
    exact ⟨Nat.le_of_lt fewer, fun same => absurd same (Nat.ne_of_lt fewer)⟩
  · rcases List.mem_cons.mp hc with rfl | hc
    · exact ⟨Nat.le_refl _, fun _ => Nat.le_refl _⟩
    · exact ⟨atMost c hc, fun _ => Nat.le_of_lt (inOrder.2.1.1 c hc)⟩

/-- Host `i` has the most free connections of the healthy ones, and of those with as many it is the
first from the cursor on. -/
structure IsBest (hosts : List Host) (cursor i : Nat) (h : Host) : Prop where
  at_ : hosts[i]? = some h
  healthy : h.isHealthy = true
  room : 0 < h.available
  most : ∀ (j : Nat) (other : Host), hosts[j]? = some other → other.isHealthy = true →
    other.available ≤ h.available
  first : ∀ (j : Nat) (other : Host), hosts[j]? = some other → other.isHealthy = true →
    other.available = h.available → ahead hosts.length cursor i ≤ ahead hosts.length cursor j

lemma mem_candidates {c : Nat × Nat} : c ∈ candidates hosts cursor ↔
    ∃ host, hosts[c.1]? = some host ∧ host.isHealthy = true ∧ 0 < host.available ∧
      host.available = c.2 := by
  simp only [candidates, List.mem_filterMap, Option.map_eq_some_iff, Option.filter_eq_some_iff,
    isCandidate, Bool.and_eq_true, decide_eq_true_eq]
  constructor
  · rintro ⟨i, -, host, ⟨at_, healthy, room⟩, rfl⟩
    exact ⟨host, at_, healthy, room, rfl⟩
  · rintro ⟨host, at_, healthy, room, same⟩
    obtain ⟨lt, -⟩ := List.getElem?_eq_some_iff.mp at_
    exact ⟨c.1, mem_order lt, host, ⟨at_, healthy, room⟩, Prod.ext rfl same⟩

lemma pairwise_candidates (hosts : List Host) (cursor : Nat) :
    (candidates hosts cursor).Pairwise fun c d =>
      ahead hosts.length cursor c.1 < ahead hosts.length cursor d.1 := by
  refine (pairwise_order hosts.length cursor).filterMap _ fun i j lt c hc d hd => ?_
  obtain ⟨host, -, rfl⟩ := Option.map_eq_some_iff.mp hc
  obtain ⟨other, -, rfl⟩ := Option.map_eq_some_iff.mp hd
  exact lt

lemma isBest_of_choose (h : choose hosts cursor = some i) : ∃ host, IsBest hosts cursor i host := by
  obtain ⟨best, chosen, rfl⟩ := Option.map_eq_some_iff.mp h
  obtain ⟨member, first⟩ := first_of_foldl_better (pairwise_candidates hosts cursor) chosen
  obtain ⟨host, at_, healthy, room, same⟩ := mem_candidates.mp member
  have among {j : Nat} {other : Host} (at' : hosts[j]? = some other)
      (healthy' : other.isHealthy = true) (room' : 0 < other.available) :=
    first (j, other.available) (mem_candidates.mpr ⟨other, at', healthy', room', rfl⟩)
  refine ⟨host, at_, healthy, room, fun j other at' healthy' => ?_,
    fun j other at' healthy' equal => ?_⟩
  · by_cases room' : 0 < other.available
    · exact same ▸ (among at' healthy' room').1
    · omega
  · exact (among at' healthy' (equal ▸ room)).2 (equal.trans same)

end Rotation

namespace Pool
variable {p q : Pool} {now ticket i : Nat} {h : Host} {lease : Lease}

/-- Host `i` is the first problem host that has a free connection and whose last failure is at least
the retry delay ago. -/
structure IsFirstDue (p : Pool) (now i : Nat) (h : Host) : Prop where
  at_ : p.hosts[i]? = some h
  problem : h.state = .problem
  expired : p.options.delay ≤ now - h.problemSince
  room : 0 < h.available
  first : ∀ (j : Nat) (other : Host), j < i → p.hosts[j]? = some other → other.state = .problem →
    p.options.delay ≤ now - other.problemSince → other.available = 0

/-- No problem host whose delay is over has a free connection. -/
def NoneDue (p : Pool) (now : Nat) : Prop :=
  ∀ h ∈ p.hosts, h.state = .problem → p.options.delay ≤ now - h.problemSince → h.available = 0

/-- What a look does to the pool, and the lease it finds. Of the hosts only the one that is leased
changes, and only in what is said here. -/
inductive Picks (p : Pool) (now ticket : Nat) : Pool → Option Lease → Prop where
  | test {i : Nat} {h : Host} (due : p.IsFirstDue now i h) :
      Picks p now ticket
        { p with
          hosts := p.hosts.set i { h with state := .probing, active := h.active + 1 }
          leases := p.leases ++ [{ ticket, host := i, probe := true }] }
        (some ⟨ticket, h.authority, h.basePath, true⟩)
  | turn {i : Nat} {h : Host} (undue : p.NoneDue now)
      (best : Rotation.IsBest p.hosts p.cursor i h) :
      Picks p now ticket
        { p with
          hosts := p.hosts.set i { h with active := h.active + 1 }
          leases := p.leases ++ [{ ticket, host := i, probe := false }]
          cursor := p.cursor + 1 }
        (some ⟨ticket, h.authority, h.basePath, false⟩)
  | nothing (undue : p.NoneDue now) (full : ∀ h ∈ p.hosts, h.isHealthy = true → h.available = 0) :
      Picks p now ticket
        { p with cursor := if p.hosts.isEmpty then p.cursor else p.cursor + 1 } none

lemma isFirstDue_of_dueHost (found : p.dueHost? now = some i) : ∃ h, p.IsFirstDue now i h := by
  obtain ⟨lt, can, others⟩ := List.findIdx?_eq_some_iff_getElem.mp found
  rw [Bool.and_eq_true, decide_eq_true_eq, Host.isDue_iff] at can
  refine ⟨p.hosts[i], List.getElem?_eq_getElem lt, can.1.1, can.1.2, can.2,
    fun j other earlier at_ problem expired => ?_⟩
  obtain ⟨lt', rfl⟩ := List.getElem?_eq_some_iff.mp at_
  have passed := others j earlier
  rw [Bool.and_eq_true, decide_eq_true_eq, Host.isDue_iff] at passed
  exact Nat.eq_zero_of_not_pos fun room => passed ⟨⟨problem, expired⟩, room⟩

lemma noneDue_of_dueHost (found : p.dueHost? now = none) : p.NoneDue now := by
  intro h hm problem expired
  have passed := List.findIdx?_eq_none_iff.mp found h hm
  by_contra room
  rw [Bool.and_eq_false_iff, decide_eq_false_iff_not] at passed
  rcases passed with undue | full
  · exact Bool.eq_false_iff.mp undue (Host.isDue_iff.mpr ⟨problem, expired⟩)
  · exact full (Nat.pos_of_ne_zero room)

/-- A look takes the first due host with room, or else the best healthy one. -/
theorem picks_of_tryLease (p : Pool) (now ticket : Nat) :
    Picks p now ticket (p.tryLease now ticket).1 (p.tryLease now ticket).2 := by
  unfold tryLease
  cases due : p.dueHost? now with
  | some i =>
    obtain ⟨h, first⟩ := isFirstDue_of_dueHost due
    have claimed : (p.hosts.modify i Host.beginProbe).modify i Host.claim =
        p.hosts.set i { h with state := .probing, active := h.active + 1 } := by
      rw [List.modify_modify_eq, modify_eq_set first.at_]
      rfl
    simp only [Option.bind_some, first.at_, Option.map_some, grant, updateHost, claimed]
    exact .test first
  | none =>
    have undue := noneDue_of_dueHost due
    cases chosen : Rotation.choose p.hosts p.cursor with
    | some i =>
      obtain ⟨h, best⟩ := Rotation.isBest_of_choose chosen
      have claimed : p.hosts.modify i Host.claim =
          p.hosts.set i { h with active := h.active + 1 } := modify_eq_set best.at_ _
      have some_ : p.hosts.isEmpty = false :=
        List.isEmpty_eq_false_iff.mpr (List.ne_nil_of_mem (List.mem_of_getElem? best.at_))
      simp only [Option.bind_none, Rotation.next, chosen, Option.bind_some, best.at_,
        Option.map_some, grant, updateHost, claimed, some_, Bool.false_eq_true, if_false]
      exact .turn undue best
    | none =>
      simp only [Option.bind_none, Rotation.next, chosen]
      refine .nothing undue fun h hm healthy => ?_
      have passed := Rotation.not_isCandidate_of_choose chosen hm
      simpa [Rotation.isCandidate, healthy] using passed

/-- A look is in vain exactly if every host with a free connection is neither due nor healthy. -/
lemma tryLease_eq_none_iff : (p.tryLease now ticket).2 = none ↔
    p.NoneDue now ∧ ∀ h ∈ p.hosts, h.isHealthy = true → h.available = 0 := by
  have picks := picks_of_tryLease p now ticket
  generalize p.tryLease now ticket = found at picks
  obtain ⟨q, lease⟩ := found
  constructor
  · rintro rfl
    cases picks with
    | nothing undue full => exact ⟨undue, full⟩
  · rintro ⟨undue, full⟩
    cases picks with
    | test due =>
      have none := undue _ (List.mem_of_getElem? due.at_) due.problem due.expired
      exact absurd none (Nat.ne_of_gt due.room)
    | turn _ best =>
      have none := full _ (List.mem_of_getElem? best.at_) best.healthy
      exact absurd none (Nat.ne_of_gt best.room)
    | nothing => rfl

section Scans

/-! The same look host by host. A due host is put to the test before a connection is claimed, and is
put back if it has none; the rotation is asked again while the host it chose turns out to be full. -/

/-- Go over the hosts until one can be tested. -/
def sweep (now retry : Nat) : List Host → List Host × Option Nat
  | [] => ([], none)
  | h :: rest =>
    let (others, found) := sweep now retry rest
    if h.isDue now retry then
      if h.beginProbe.available > 0 then (h.beginProbe.claim :: rest, some 0)
      else (h.beginProbe.abandonProbe :: others, found.map (· + 1))
    else (h :: others, found.map (· + 1))

/-- Ask the rotation so many times at most. -/
def askRotation (hosts : List Host) : Nat → Nat → Option Nat × Nat
  | 0, cursor => (none, cursor)
  | times + 1, cursor =>
    match Rotation.next hosts cursor with
    | (none, cursor) => (none, cursor)
    | (some i, cursor) =>
      if hosts[i]?.any (·.available > 0) then (some i, cursor) else askRotation hosts times cursor

def tryLeaseByHost (p : Pool) (now ticket : Nat) : Pool × Option Lease :=
  match sweep now p.options.delay p.hosts with
  | (hosts, some i) =>
    ({ p with hosts, leases := p.leases ++ [{ ticket, host := i, probe := true }] },
      hosts[i]?.map fun h => ⟨ticket, h.authority, h.basePath, true⟩)
  | (hosts, none) =>
    match askRotation hosts hosts.length p.cursor with
    | (some i, cursor) =>
      ({ p with
          hosts := hosts.modify i Host.claim
          leases := p.leases ++ [{ ticket, host := i, probe := false }]
          cursor },
        hosts[i]?.map fun h => ⟨ticket, h.authority, h.basePath, false⟩)
    | (none, cursor) => ({ p with hosts, cursor }, none)

lemma abandonProbe_beginProbe {h : Host} {retry : Nat} (due : h.isDue now retry = true) :
    h.beginProbe.abandonProbe = h := by
  rw [Host.abandonProbe, Host.beginProbe, if_pos rfl, ← (Host.isDue_iff.mp due).1]

/-- Hosts that were put to the test in vain are as they were. -/
lemma sweep_eq (now retry : Nat) (hosts : List Host) :
    sweep now retry hosts =
      match hosts.findIdx? fun h => h.isDue now retry && h.available > 0 with
      | some i => (hosts.modify i fun h => h.beginProbe.claim, some i)
      | none => (hosts, none) := by
  induction hosts with
  | nil => rfl
  | cons h rest ih =>
    rw [sweep, ih, List.findIdx?_cons]
    by_cases due : h.isDue now retry = true
    · have same : h.beginProbe.available = h.available := rfl
      by_cases room : h.available > 0
      · simp [due, room, same, List.modify]
      · simp only [due, room, same, abandonProbe_beginProbe due]
        cases rest.findIdx? fun h => h.isDue now retry && h.available > 0 <;> simp [List.modify]
    · simp only [due]
      cases rest.findIdx? fun h => h.isDue now retry && h.available > 0 <;> simp [List.modify]

lemma askRotation_eq (hosts : List Host) (cursor : Nat) :
    askRotation hosts hosts.length cursor = Rotation.next hosts cursor := by
  cases hosts with
  | nil => rfl
  | cons h rest =>
    rw [List.length_cons, askRotation]
    cases chosen : Rotation.choose (h :: rest) cursor with
    | none => simp [Rotation.next, chosen]
    | some i =>
      obtain ⟨host, best⟩ := Rotation.isBest_of_choose chosen
      simp [Rotation.next, chosen, best.at_, best.room]

/-- Host by host, a look comes to the same. -/
theorem tryLeaseByHost_eq (p : Pool) (now ticket : Nat) :
    p.tryLeaseByHost now ticket = p.tryLease now ticket := by
  unfold tryLeaseByHost tryLease
  rw [sweep_eq]
  cases due : p.dueHost? now with
  | some i =>
    obtain ⟨h, first⟩ := isFirstDue_of_dueHost due
    unfold dueHost? at due
    simp only [due, Option.bind_some, first.at_, Option.map_some, grant, updateHost,
      List.modify_modify_eq, List.getElem?_modify_eq, Option.map_eq_map]
    rfl
  | none =>
    unfold dueHost? at due
    simp only [due, askRotation_eq, Option.bind_none]
    cases chosen : Rotation.choose p.hosts p.cursor with
    | some i =>
      obtain ⟨h, best⟩ := Rotation.isBest_of_choose chosen
      simp only [Rotation.next, chosen, Option.bind_some, best.at_, Option.map_some, grant,
        updateHost]
    | none => simp only [Rotation.next, chosen, Option.bind_none]

end Scans

section Given

/-! Leases are connections of hosts. -/

variable {a : Act} {m : Moment}

/-- In this step a connection of host `i` is leased. -/
def Moment.Leases (m : Moment) (a : Act) (i : Nat) : Prop :=
  ∃ ticket probe, (m.step a).pool.leases = m.pool.leases ++ [{ ticket, host := i, probe }]

/-- The lease is a connection of host `i`. -/
def Leads (p q : Pool) (ticket : Nat) (lease : Lease) (i : Nat) : Prop :=
  (∃ host, p.hosts[i]? = some host ∧ lease.IsFor host) ∧
    q.leases = p.leases ++ [{ ticket, host := i, probe := lease.probe }]

lemma Grants.exists_leads (h : Grants p now ticket q lease) : ∃ i, Leads p q ticket lease i := by
  cases h with
  | test at_ => exact ⟨_, ⟨_, at_, rfl, rfl⟩, rfl⟩
  | choice _ at_ => exact ⟨_, ⟨_, at_, rfl, rfl⟩, rfl⟩

lemma exists_leads_of_enter (given : (p.enter now ticket).2.lease? = some lease) :
    ∃ i, Leads p (p.enter now ticket).1 ticket lease i := by
  have entry := enters_of_enter p now ticket
  generalize p.enter now ticket = found at entry given
  obtain ⟨q, outcome⟩ := found
  cases entry with
  | granted h =>
    obtain rfl := Option.some.inj given
    exact h.exists_leads
  | refused => cases given
  | waits => cases given

lemma exists_leads_of_settleIn (given : (p.settleIn now ticket).2.lease? = some lease) :
    ∃ i, Leads p (p.settleIn now ticket).1 ticket lease i := by
  have looked := looks_of_settleIn p now ticket
  generalize p.settleIn now ticket = found at looked given
  obtain ⟨q, outcome⟩ := found
  cases looked with
  | granted h =>
    obtain rfl := Option.some.inj given
    exact h.exists_leads
  | waits => cases given
  | refused => cases given

/-- Whoever is given a lease, at once or after a wait, has a connection of a host it is for. -/
theorem Moment.leases_of_granted (given : m.granted a = some lease) :
    ∃ i, (∃ host, m.pool.hosts[i]? = some host ∧ lease.IsFor host) ∧ m.Leases a i := by
  cases a with
  | tryLease =>
    obtain ⟨i, isFor, more⟩ := (grants_of_tryLease (Prod.ext rfl given)).exists_leads
    exact ⟨i, isFor, _, _, more⟩
  | enter =>
    obtain ⟨i, isFor, more⟩ := exists_leads_of_enter given
    exact ⟨i, isFor, _, _, more⟩
  | look k =>
    cases at_ : m.pool.woken[k]? with
    | none => simp [granted, at_] at given
    | some w =>
      simp only [granted, at_] at given
      obtain ⟨i, isFor, more⟩ := exists_leads_of_settleIn given
      refine ⟨i, isFor, w.ticket, lease.probe, ?_⟩
      simpa only [step, at_] using more
  | _ => cases given

end Given

section Excluded

/-! A host whose connection failed is left alone for the retry delay. -/

variable {b b' : Ledger} {a : Act} {retry since : Nat} {m : Moment}

/-- In this step the holder of a test of host `i` reports success. -/
def Ledger.Returns (b : Ledger) (a : Act) (i : Nat) : Prop :=
  ∃ ticket l, a = .reportSuccess ticket ∧ b.live? ticket = some l ∧ l.probe = true ∧ l.host = i

/-- Host `i` has not been healthy from that time on. -/
def Ledger.OutSince (b : Ledger) (i since : Nat) : Prop :=
  ∀ h, b.hosts[i]? = some h → h.state ≠ .healthy ∧ since ≤ h.problemSince

lemma Ledger.OutSince.modify (hb : b.OutSince i since) {j : Nat} {f : Host → Host}
    {leases : List LiveLease}
    (still : ∀ h : Host, h.state ≠ .healthy → since ≤ h.problemSince → j = i →
      (f h).state ≠ .healthy ∧ since ≤ (f h).problemSince) :
    Ledger.OutSince ⟨b.hosts.modify j f, leases⟩ i since := by
  intro h at_
  obtain ⟨old, before, rfl⟩ := exists_of_modify at_
  have out := hb old before
  split
  · next same => exact still old out.1 out.2 same
  · exact out

/-- Only a test that succeeds brings a host back. -/
theorem Shift.outSince (h : Shift now retry a b b') (le : since ≤ now) (hb : b.OutSince i since)
    (stays : ¬b.Returns a i) : b'.OutSince i since := by
  cases h with
  | rest => exact hb
  | leased => exact hb.modify fun h out late _ => ⟨out, late⟩
  | probed => exact hb.modify fun h _ late _ => ⟨nofun, late⟩
  | failed => exact hb.modify fun h _ _ _ => ⟨nofun, le⟩
  | succeeded ticket live at_ probe =>
    exact hb.modify fun h _ _ same => absurd ⟨ticket, _, rfl, live, probe, same⟩ stays
  | released ticket live =>
    refine hb.modify fun h out late _ => ?_
    split
    · unfold Host.abandonProbe
      split
      · exact ⟨nofun, late⟩
      · exact ⟨out, late⟩
    · exact ⟨out, late⟩

/-- A host that is out is leased only to be tested, and not before its delay is over. -/
theorem Shift.expired_of_outSince (h : Shift now retry a b b') (le : since ≤ now)
    (hb : b.OutSince i since) {ticket : Nat} {probe : Bool}
    (more : b'.leases = b.leases ++ [{ ticket, host := i, probe }]) : since + retry ≤ now := by
  cases h with
  | rest => simp at more
  | leased _ ticket at_ healthy =>
    obtain ⟨-, rfl, -⟩ := by simpa using more
    exact absurd (of_decide_eq_true healthy) (hb _ at_).1
  | probed _ ticket at_ due =>
    obtain ⟨-, rfl, -⟩ := by simpa using more
    have late := (hb _ at_).2
    have waited := (Host.isDue_iff.mp due).2
    omega
  | failed ticket => simpa [Ledger.settled] using congrArg List.length more
  | succeeded ticket => simpa [Ledger.settled] using congrArg List.length more
  | released ticket =>
    have fewer : (b.without ticket).length ≤ b.leases.length := List.length_filter_le ..
    have grown := congrArg List.length more
    simp at grown
    omega

lemma Moment.now_le_step (m : Moment) (a : Act) : m.now ≤ (m.step a).now := by
  cases a with
  | wait milliseconds => exact Nat.le_add_right ..
  | look k =>
    unfold step
    dsimp only
    split <;> exact Nat.le_refl _
  | _ => exact Nat.le_refl _

/-- While a host is out it is leased no sooner than its delay is over, unless a test of it
succeeds. -/
theorem Moment.run_expired_of_outSince (acts : List Act) (le : since ≤ m.now)
    (out : m.pool.ledger.OutSince i since) (leases : (m.run acts).Leases a i) :
    since + m.pool.options.delay ≤ (m.run acts).now ∨
      ∃ before x after, acts = before ++ x :: after ∧ (m.run before).pool.ledger.Returns x i := by
  induction acts generalizing m with
  | nil =>
    obtain ⟨ticket, probe, more⟩ := leases
    exact .inl ((m.step_shift a).expired_of_outSince le out more)
  | cons x rest ih =>
    by_cases returns : m.pool.ledger.Returns x i
    · exact .inr ⟨[], x, rest, rfl, returns⟩
    · have later := Nat.le_trans le (m.now_le_step x)
      rcases ih later ((m.step_shift x).outSince le out returns) leases with waited | returned
      · rw [m.options_step] at waited
        exact .inl waited
      · obtain ⟨before, y, after, rfl, returns⟩ := returned
        exact .inr ⟨x :: before, y, after, rfl, returns⟩

lemma outSince_reportFailure {l : LiveLease} (live : m.pool.live? ticket = some l) :
    (m.step (.reportFailure ticket)).pool.ledger.OutSince l.host m.now := by
  intro h at_
  change (m.pool.reportFailure m.now ticket).1.hosts[l.host]? = some h at at_
  cases found : m.pool.hosts[l.host]? with
  | none => simp [reportFailure, live, found] at at_
  | some host =>
    have failed : (m.pool.reportFailure m.now ticket).1.hosts =
        m.pool.hosts.modify l.host (·.markProblem m.now) := by
      simp [reportFailure, live, found, wakeAll, settle, updateHost]
    rw [failed, List.getElem?_modify_eq, found] at at_
    obtain rfl := Option.some.inj at_
    exact ⟨by simp [Host.markProblem], Nat.le_refl _⟩

end Excluded

/-- A look tests the first due host with room, or else takes a connection of the healthy host with the
most of them, and is in vain when there is neither. It leaves all other hosts alone, even the due
hosts without room that were put to the test first. Whatever happens after a failure, the host is
leased no sooner than its retry delay is over, at once or after a wait, unless a test of it succeeds
in between. -/
theorem Moment.leases_first_due_or_best (m : Moment) :
    (∀ now ticket, m.pool.tryLeaseByHost now ticket = m.pool.tryLease now ticket ∧
      Picks m.pool now ticket (m.pool.tryLease now ticket).1 (m.pool.tryLease now ticket).2 ∧
      ((m.pool.tryLease now ticket).2 = none ↔
        m.pool.NoneDue now ∧ ∀ h ∈ m.pool.hosts, h.isHealthy = true → h.available = 0)) ∧
    (∀ a lease, m.granted a = some lease →
      ∃ i, (∃ host, m.pool.hosts[i]? = some host ∧ lease.IsFor host) ∧ m.Leases a i) ∧
    ∀ ticket l, m.pool.live? ticket = some l → ∀ acts a,
      let start := m.step (.reportFailure ticket)
      (start.run acts).Leases a l.host →
        m.now + m.pool.options.delay ≤ (start.run acts).now ∨
        ∃ before x after, acts = before ++ x :: after ∧
          (start.run before).pool.ledger.Returns x l.host := by
  refine ⟨fun now ticket => ⟨tryLeaseByHost_eq m.pool now ticket,
    picks_of_tryLease m.pool now ticket, tryLease_eq_none_iff⟩, fun a lease => leases_of_granted,
    fun ticket l live acts a => ?_⟩
  intro start leases
  have later : m.now ≤ start.now := m.now_le_step _
  have waited := Moment.run_expired_of_outSince acts later (outSince_reportFailure live) leases
  rwa [m.options_step] at waited

/-- One of two hosts fails. Until its delay is over only the other one is leased, then the first one
to be tested. -/
theorem leases_other_host_for_delay :
    let host (authority : String) : Host := { uri := {}, authority, basePath := "", budget := 1 }
    let pool : Pool := { name := "api", hosts := [host "h0:80", host "h1:80"] }
    let m := Moment.run { pool } [.tryLease]
    let start := m.step (.reportFailure 0)
    let acts : List Act := [.tryLease, .release 0, .wait 10000]
    m.pool.live? 0 = some { ticket := 0, host := 0, probe := false } ∧ start.Leases .tryLease 1 ∧
      (start.run acts).Leases .tryLease 0 ∧
      ¬(start.run [.release 0, .wait 9999]).Leases .tryLease 0 := by
  intro host pool m start acts
  have live : m.pool.live? 0 = some { ticket := 0, host := 0, probe := false } := by decide
  refine ⟨live, ⟨1, false, by decide⟩, ⟨2, true, by decide⟩, fun leases => ?_⟩
  rcases m.leases_first_due_or_best.2.2 0 _ live [.release 0, .wait 9999] .tryLease leases with
    waited | ⟨before, x, after, split, ticket, l, rfl, -⟩
  · exact absurd waited (by decide)
  · have member : Act.reportSuccess ticket ∈ [Act.release 0, Act.wait 9999] :=
      split ▸ List.mem_append_right _ List.mem_cons_self
    simp at member

end Pool
end Gateway
