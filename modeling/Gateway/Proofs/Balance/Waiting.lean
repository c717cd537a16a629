import Mathlib.Algebra.BigOperators.Group.List.Basic
import Gateway.Proofs.Balance.Leases
import Gateway.Proofs.Balance.Recovery

/-! Requests that wait. One waits for nothing only when a test has just brought a host back, which
nobody is told, or when a wake-up went to a test of another host. -/
namespace Gateway

/-- The connections of a host that any request could have now. -/
def Host.idle (h : Host) : Nat := if h.isHealthy then h.available else 0

namespace Pool
variable {p q : Pool} {now drawn ticket c i : Nat} {h : Host} {lease : Lease} {outcome : Admittance}

/-- The connections that any request could have now. -/
def idle (p : Pool) : Nat := (p.hosts.map Host.idle).sum

/-- Wake-ups by a lease that was given back, not acted upon yet. -/
def released (p : Pool) : Nat := p.woken.countP (·.byRelease)

/-- Free connections of the host that a lease tests, if its success brings the host back. -/
def broughtBack (p : Pool) (ticket : Nat) : Nat :=
  match (p.live? ticket).bind fun l => p.hosts[l.host]?.map (l, ·) with
  | some (l, h) => if l.probe && !h.isHealthy then h.available else 0
  | none => 0

/-- Not more connections are idle while requests wait than there are wake-ups on their way, and `c`
more. Waiting can still come to something. -/
structure Served (p : Pool) (now c : Nat) : Prop where
  announced : p.waiting ≠ [] → p.idle ≤ p.released + c
  usable : p.waiting ≠ [] → p.hasUsableHost now = true

lemma idle_eq_zero (full : ¬p.HasRoom now) : p.idle = 0 := by
  refine List.sum_eq_zero fun n hn => ?_
  obtain ⟨h, hm, rfl⟩ := List.mem_map.mp hn
  unfold Host.idle
  split
  · next healthy =>
    by_contra room
    exact full ⟨h, hm, Nat.pos_of_ne_zero room, .inl healthy⟩
  · rfl

lemma usable_modify {hosts : List Host} {retry : Nat} {f : Host → Host}
    (keep : ∀ h ∈ hosts, h.isUsable now retry = true → (f h).isUsable now retry = true)
    (h : hosts.any (·.isUsable now retry) = true) :
    (hosts.modify i f).any (·.isUsable now retry) = true := by
  obtain ⟨host, hm, usable⟩ := List.any_eq_true.mp h
  obtain ⟨j, at_⟩ := List.getElem?_of_mem hm
  refine List.any_eq_true.mpr ⟨if i = j then f host else host, ?_, ?_⟩
  · refine List.mem_of_getElem? (i := j) ?_
    rw [List.getElem?_modify, at_]
    rfl
  · split
    · exact keep host hm usable
    · exact usable

/-- A test takes no idle connection, any other lease takes one. -/
lemma Grants.idle_eq (h : Grants p now ticket q lease) :
    q.idle + (if lease.probe then 0 else 1) = p.idle := by
  cases h with
  | @test i host at_ due room =>
    have sum := sum_modify (f := fun h : Host => h.beginProbe.claim) Host.idle at_
    have before : host.idle = 0 := by
      simp only [Host.isDue, Bool.and_eq_true, decide_eq_true_eq] at due
      simp [Host.idle, Host.isHealthy, due.1]
    have after : host.beginProbe.claim.idle = 0 := by
      simp [Host.idle, Host.isHealthy, Host.beginProbe, Host.claim]
    simp only [idle, leased, if_true]
    omega
  | @choice i host cursor at_ healthy room =>
    have sum := sum_modify (f := fun h : Host => h.claim) Host.idle at_
    have taken : host.claim.idle + 1 = host.idle := by
      unfold Host.available at room
      simp only [Host.isHealthy, decide_eq_true_eq] at healthy
      simp only [Host.idle, Host.isHealthy, Host.claim, Host.available, healthy, decide_true, if_true]
      omega
    simp only [idle, leased, Bool.false_eq_true, if_false]
    omega

lemma Grants.hasUsableHost (h : Grants p now ticket q lease) (usable : p.hasUsableHost now = true) :
    q.hasUsableHost now = true := by
  cases h with
  | test at_ due room =>
    refine usable_modify (fun h _ _ => ?_) usable
    simp [Host.isUsable, Host.beginProbe, Host.claim]
  | choice cursor at_ healthy room => exact usable_modify (fun _ _ usable => usable) usable

lemma Grants.waiting_eq (h : Grants p now ticket q lease) : q.waiting = p.waiting := by
  cases h <;> rfl

lemma Grants.woken_eq (h : Grants p now ticket q lease) : q.woken = p.woken := by
  cases h <;> rfl

namespace Served

lemma weaken (h : p.Served now c) {more : Nat} (le : c ≤ more) : p.Served now more :=
  { h with announced := fun waits => Nat.le_trans (h.announced waits) (Nat.add_le_add_left le _) }

/-- Where nobody waits nobody waits in vain. -/
lemma of_nobody (h : p.waiting = []) : p.Served now c :=
  ⟨fun waits => absurd h waits, fun waits => absurd h waits⟩

/-- Where nothing is idle nothing is missed. -/
lemma of_busy (none : p.idle = 0) (usable : p.waiting ≠ [] → p.hasUsableHost now = true) :
    p.Served now c :=
  ⟨fun _ => none ▸ Nat.zero_le _, usable⟩

lemma grants (h : p.Served now c) (hq : Grants p now ticket q lease) : q.Served now c where
  announced waits := by
    have idle := hq.idle_eq
    rw [hq.waiting_eq] at waits
    have announced := h.announced waits
    simp only [released, hq.woken_eq] at announced ⊢
    omega
  usable waits := by
    rw [hq.waiting_eq] at waits
    exact hq.hasUsableHost (h.usable waits)

/-- A request takes a place in the queue, or leaves it, only when it has found nothing. -/
lemma enters (h : p.Served now c) (hq : Enters p now ticket q outcome) : q.Served now c := by
  cases hq with
  | granted found => exact h.grants found
  | refused => exact ⟨h.announced, h.usable⟩
  | waits cursor full usable => exact of_busy (idle_eq_zero full) fun _ => usable

lemma tryLease (h : p.Served now c) : (p.tryLease now ticket).1.Served now c := by
  cases e : p.tryLease now ticket with
  | mk q found =>
    cases found with
    | some lease => exact h.grants (grants_of_tryLease e)
    | none =>
      rw [tryLease_none e]
      exact ⟨h.announced, h.usable⟩

/-- The wake-up of a request is acted upon, with or without success, unless it goes to a test. -/
lemma settleIn (h : p.Served now c) {k : Nat} {w : Woken} (at_ : p.woken[k]? = some w) :
    let look := { p with woken := p.woken.eraseIdx k }.settleIn now w.ticket
    look.1.Served now
      (c + if w.byRelease && look.2.lease?.any (·.probe) then 1 else 0) := by
  intro look
  have looks : Looks { p with woken := p.woken.eraseIdx k, spare := false } now w.ticket look.1 look.2 :=
    looks_of_settleIn { p with woken := p.woken.eraseIdx k } now w.ticket
  obtain ⟨before, after, all, rest⟩ := exists_of_getElem? at_
  have fewer : p.released = (before ++ after).countP (·.byRelease) + if w.byRelease then 1 else 0 := by
    simp only [released, all, List.countP_append, List.countP_cons]
    omega
  generalize look = found at looks ⊢
  obtain ⟨q, outcome⟩ := found
  cases looks with
  | @granted q lease found =>
    have idle := found.idle_eq
    constructor
    · intro waits
      change q.waiting ≠ [] at waits
      rw [found.waiting_eq] at waits
      have announced := h.announced waits
      change q.idle ≤ q.released + _
      have kept : q.released = (before ++ after).countP (·.byRelease) := by
        simp only [released, found.woken_eq, rest]
      change q.idle + _ = p.idle at idle
      simp only [Admittance.lease?, Option.any_some, Bool.and_eq_true]
      by_cases spent : w.byRelease = true <;> by_cases test : lease.probe = true <;>
        simp only [spent, test, and_self, and_true, and_false, if_true, if_false,
          Bool.false_eq_true] at fewer idle ⊢ <;> omega
    · intro waits
      change q.waiting ≠ [] at waits
      rw [found.waiting_eq] at waits
      exact found.hasUsableHost (h.usable waits)
  | waits cursor full usable => exact of_busy (idle_eq_zero full) fun _ => usable
  | refused cursor full unusable => exact of_busy (idle_eq_zero full) h.usable

lemma wakeAll : p.wakeAll.Served now c := of_nobody rfl

lemma wakeDue (h : p.Served now c) : (p.wakeDue now).Served now c := by
  have before (waits : (p.wakeDue now).waiting ≠ []) : p.waiting ≠ [] := by
    intro none
    simp [Pool.wakeDue, none] at waits
  refine ⟨fun waits => ?_, fun waits => h.usable (before waits)⟩
  have announced := h.announced (before waits)
  have same : (p.wakeDue now).released = p.released := by
    simp [released, Pool.wakeDue, List.countP_map, Function.comp_def]
  rw [same]
  exact announced

/-- One more connection is idle, one more wake-up is on its way. -/
lemma wakeOne (h : p.Served now (c + 1)) : p.wakeOne.Served now c := by
  unfold Pool.wakeOne
  split
  · next nobody => exact of_nobody nobody
  · next w rest first =>
    have waits : p.waiting ≠ [] := by
      rw [first]
      nofun
    refine ⟨fun _ => ?_, fun _ => h.usable waits⟩
    have announced := h.announced waits
    change p.idle ≤ _
    simp only [released, List.countP_append, List.countP_singleton, if_true] at announced ⊢
    omega

/-- A wake-up that was spent on a request is passed on when the request goes away. -/
lemma cancel (h : p.Served now c) (orderly : p.Orderly drawn) : (p.cancel ticket).Served now c := by
  have once := orderly.once ticket
  unfold uses at once
  unfold Pool.cancel
  split
  · have before (waits : (p.waiting.filter (·.ticket ≠ ticket)) ≠ []) : p.waiting ≠ [] := by
      intro none
      simp [none] at waits
    exact ⟨fun waits => h.announced (before waits), fun waits => h.usable (before waits)⟩
  · split
    · exact h
    · next w found =>
      have named := List.find?_some found
      obtain rfl := of_decide_eq_true named
      obtain ⟨before, after, all, rest⟩ :=
        exists_of_key Woken.ticket (List.mem_of_find?_eq_some found) (by omega)
      have fewer : p.released =
          (before ++ after).countP (·.byRelease) + if w.byRelease then 1 else 0 := by
        simp only [released, all, List.countP_append, List.countP_cons]
        omega
      have left : { p with woken := p.woken.filter (·.ticket ≠ w.ticket) }.leaveQueue.Served now
          (c + if w.byRelease then 1 else 0) := by
        refine ⟨fun waits => ?_, h.usable⟩
        have announced := h.announced waits
        change p.idle ≤ (p.woken.filter (·.ticket ≠ w.ticket)).countP (·.byRelease) + _
        rw [rest]
        omega
      dsimp only
      split
      · next spent =>
        rw [if_pos spent] at left
        exact left.wakeOne
      · next unspent =>
        rw [if_neg unspent] at left
        exact left

/-- A host that is tested no longer is due for another test at once. -/
lemma release (h : p.Served now c) (attended : p.ledger.AttendsAll now p.options.delay) :
    (p.release ticket).1.Served now c := by
  unfold Pool.release
  split
  · exact h
  · next l live =>
    refine wakeOne ⟨fun waits => ?_, fun waits =>
      usable_modify (fun host hm usable => (?_ : Host.isUsable _ now p.options.delay = true))
        (h.usable waits)⟩
    · have announced := h.announced waits
      have more : ((p.hosts.modify l.host fun h =>
          ((if l.probe && !l.settled then Host.abandonProbe else id) h).free).map Host.idle).sum ≤
            p.idle + 1 := by
        refine sum_modify_le Host.idle fun host => ?_
        unfold Host.idle Host.available
        split
        · simp only [Host.abandonProbe, Host.free, Host.isHealthy]
          grind
        · simp only [id, Host.free, Host.isHealthy]
          grind
      change _ ≤ p.released + _
      exact Nat.le_trans more (by omega)
    · obtain ⟨j, at_⟩ := List.getElem?_of_mem hm
      have expired := (attended j host at_).expired
      split
      · unfold Host.abandonProbe
        split
        · next probing =>
          have waited : p.options.delay ≤ now - host.problemSince := by
            have expired := expired probing
            omega
          simp [Host.isUsable, Host.free, Host.isDue, waited]
        · exact usable
      · exact usable

lemma reportFailure (h : p.Served now c) : (p.reportFailure now ticket).1.Served now c := by
  unfold Pool.reportFailure
  split
  · exact h
  · exact wakeAll

/-- Nobody is told of the connections that a successful test brings back. -/
lemma reportSuccess (h : p.Served now c) :
    (p.reportSuccess ticket).1.Served now (c + p.broughtBack ticket) := by
  unfold Pool.reportSuccess
  split
  · exact h.weaken (Nat.le_add_right ..)
  · next l host found =>
    have back : p.broughtBack ticket = if l.probe && !host.isHealthy then host.available else 0 := by
      rw [broughtBack, found]
    rw [back]
    obtain ⟨l, live, at_, rfl⟩ := exists_of_found found
    split
    · next probe =>
      have sum := sum_modify (f := Host.markHealthy) Host.idle at_
      refine ⟨fun waits => ?_, fun waits => usable_modify (fun host _ _ => ?_) (h.usable waits)⟩
      · have announced := h.announced waits
        have after : host.markHealthy.idle = host.available := rfl
        change ((p.hosts.modify l.host Host.markHealthy).map Host.idle).sum ≤ p.released + _
        unfold idle at announced
        rw [after] at sum
        cases healthy : host.isHealthy <;> simp [Host.idle, healthy, probe] at sum ⊢ <;> omega
      · simp [Host.isUsable, Host.markHealthy]
    · exact h.weaken (Nat.le_add_right ..)

end Served

/-- Connections that became idle in a step without a wake-up for each. -/
def Moment.missed (m : Moment) : Act → Nat
  | .reportSuccess ticket => m.pool.broughtBack ticket
  | .look k =>
    match m.pool.woken[k]? with
    | some w => if w.byRelease && (m.granted (.look k)).any (·.probe) then 1 else 0
    | none => 0
  | _ => 0

/-- The connections missed along a run since nobody waited or nothing was idle. -/
def Moment.unannounced (m : Moment) (c : Nat) : List Act → Nat
  | [] => c
  | a :: rest =>
    let next := m.step a
    next.unannounced
      (if next.pool.waiting = [] ∨ next.pool.idle = 0 then 0 else c + m.missed a) rest

lemma Moment.step_served {m : Moment} (orderly : m.pool.Orderly m.drawn)
    (attended : m.pool.ledger.AttendsAll m.now m.pool.options.delay) (h : m.pool.Served m.now c)
    (a : Act) : (m.step a).pool.Served (m.step a).now (c + m.missed a) := by
  cases a with
  | wait milliseconds =>
    refine ⟨h.announced, fun waits => ?_⟩
    obtain ⟨host, hm, usable⟩ := List.any_eq_true.mp (h.usable waits)
    refine List.any_eq_true.mpr ⟨host, hm, ?_⟩
    simp only [Host.isUsable, Host.isDue, Bool.or_eq_true, Bool.and_eq_true, decide_eq_true_eq,
      step] at usable ⊢
    have longer : m.now - host.problemSince ≤ m.now + milliseconds - host.problemSince :=
      Nat.sub_le_sub_right (Nat.le_add_right ..) _
    exact usable.imp_right (And.imp_right fun waited =>
      decide_eq_true (Nat.le_trans waited longer))
  | wakeDue => exact h.wakeDue
  | tryLease => exact h.tryLease
  | enter => exact h.enters (enters_of_enter m.pool m.now m.drawn)
  | look k =>
    cases at_ : m.pool.woken[k]? with
    | none =>
      simp only [step, missed, at_]
      exact h
    | some w =>
      simp only [step, missed, granted, at_]
      exact h.settleIn at_
  | cancel ticket => exact h.cancel orderly
  | reportFailure ticket => exact h.reportFailure
  | reportSuccess ticket => exact h.reportSuccess
  | release ticket => exact h.release attended

theorem Moment.run_served (acts : List Act) {m : Moment} (orderly : m.pool.Orderly m.drawn)
    (attended : m.pool.ledger.AttendsAll m.now m.pool.options.delay) (h : m.pool.Served m.now c) :
    (m.run acts).pool.Served (m.run acts).now (m.unannounced c acts) := by
  induction acts generalizing m c with
  | nil => exact h
  | cons a rest ih =>
    refine ih (step_orderly orderly a) (step_attendsAll orderly.lease_once attended a) ?_
    have next := step_served orderly attended h a
    split
    · next well =>
      rcases well with nobody | none
      · exact .of_nobody nobody
      · exact .of_busy none next.usable
    · exact next

/-- However a pool is used and however time goes on, while requests wait some host is worth waiting
for, and the idle connections are no more than the wake-ups on their way to requests and the
connections that were missed since nobody waited or nothing was idle. -/
theorem idle_le_released (name : String) (hosts : List Host) (options : PoolOptions)
    (healthy : ∀ h ∈ hosts, h.state = .healthy) (acts : List Act) :
    let start : Moment := { pool := { name, hosts, options } }
    let m := start.run acts
    m.pool.waiting ≠ [] →
      m.pool.hasUsableHost m.now = true ∧ m.pool.idle ≤ m.pool.released + start.unannounced 0 acts := by
  intro start m waits
  have served : m.pool.Served m.now (start.unannounced 0 acts) :=
    start.run_served acts (orderly_start name hosts options) (Ledger.attendsAll_of_healthy healthy)
      (.of_nobody rfl)
  exact ⟨served.usable waits, served.announced waits⟩

/-- The test of the only host succeeds while a request waits. Three connections are idle then, and the
request goes on waiting. -/
theorem waits_after_successful_test :
    let host : Host := { uri := {}, authority := "h0:80", basePath := "", budget := 5 }
    let start : Moment := { pool := { name := "api", hosts := [host] } }
    let acts : List Act := [.tryLease, .reportFailure 0, .wait 10000, .tryLease, .enter,
      .reportSuccess 1]
    let m := start.run acts
    (∀ h ∈ [host], h.state = .healthy) ∧ m.pool.waiting ≠ [] ∧ m.pool.woken = [] ∧ m.pool.idle = 3 ∧
      start.unannounced 0 acts = 3 ∧
      m.pool.hasUsableHost m.now = true ∧ m.pool.idle ≤ m.pool.released + start.unannounced 0 acts := by
  intro host start acts m
  have healthy : ∀ h ∈ [host], h.state = .healthy := by decide
  exact ⟨healthy, by decide, by decide, by decide, by decide,
    idle_le_released "api" [host] {} healthy acts (by decide)⟩

end Pool
end Gateway
