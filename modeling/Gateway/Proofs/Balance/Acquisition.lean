import Gateway.Proofs.Balance.Selection
import Gateway.Proofs.Balance.Turns

/-! How a request for a connection ends. It is decided when the request comes in and again whenever it is
woken: it gets the lease that a look finds, is refused while all hosts are out, and otherwise waits if
there is a place for it. -/
namespace Gateway.Pool
variable {p q : Pool} {now drawn ticket : Nat} {lease : Lease} {outcome : Admittance} {full : Prop}
  {m : Moment} {a : Act}

/-- Every host has failed and is not due for a test yet. -/
def AllOut (p : Pool) (now : Nat) : Prop :=
  ∀ h ∈ p.hosts, h.state = .problem ∧ now - h.problemSince < p.options.delay

/-- How many requests wait or were woken. -/
def parked (p : Pool) : Nat := p.waiting.length + p.woken.length

/-- The request waits, or was woken and has not looked yet. -/
def Parks (p : Pool) (ticket : Nat) : Prop :=
  (∃ w ∈ p.waiting, w.ticket = ticket) ∨ ∃ w ∈ p.woken, w.ticket = ticket

lemma parks_iff : p.Parks ticket ↔ 0 < p.placesOf ticket := by
  simp only [Parks, placesOf, Nat.add_pos_iff_pos_or_pos, List.countP_pos_iff, decide_eq_true_eq]

/-- Waiting is in vain exactly while all hosts are out. -/
lemma hasUsableHost_eq_false_iff : p.hasUsableHost now = false ↔ p.AllOut now := by
  simp only [hasUsableHost, List.any_eq_false, Host.isUsable, AllOut, Bool.or_eq_true,
    decide_eq_true_eq, Host.isDue_iff, not_or, not_and, Nat.not_le, ne_eq, not_not]
  refine forall₂_congr fun h mem => ?_
  constructor
  · rintro ⟨problem, early⟩
    exact ⟨problem, early problem⟩
  · rintro ⟨problem, early⟩
    exact ⟨problem, fun _ => early⟩

lemma hasUsableHost_eq_true_iff : p.hasUsableHost now = true ↔ ¬p.AllOut now := by
  rw [← hasUsableHost_eq_false_iff, Bool.not_eq_false]

/-- A look does not depend on who else was woken, nor on a release that is remembered. -/
lemma tryLease_with (woken : List Woken) (spare : Bool) :
    { p with woken, spare }.tryLease now ticket =
      ({ (p.tryLease now ticket).1 with woken, spare }, (p.tryLease now ticket).2) := by
  unfold tryLease dueHost?
  dsimp only
  split
  · rfl
  · split
    · rfl
    · rfl

/-- How a request fares is decided by what a look finds, by whether all hosts are out, and by whether the
queue is full, in this order. -/
structure Fares (p : Pool) (now ticket : Nat) (full : Prop) (outcome : Admittance) : Prop where
  granted : ∀ lease, outcome = .granted lease ↔ (p.tryLease now ticket).2 = some lease
  unavailable : outcome = .refused (.backendUnavailable p.name) ↔
    (p.tryLease now ticket).2 = none ∧ p.AllOut now
  queueFull : outcome = .refused (.queueFull p.name) ↔
    (p.tryLease now ticket).2 = none ∧ ¬p.AllOut now ∧ full
  waits : outcome = .waits ↔ (p.tryLease now ticket).2 = none ∧ ¬p.AllOut now ∧ ¬full

section Decision

lemma fares_of_lease (found : (p.tryLease now ticket).2 = some lease) :
    Fares p now ticket full (.granted lease) := by
  constructor <;> simp [found]

lemma fares_of_allOut (nothing : (p.tryLease now ticket).2 = none) (out : p.AllOut now) :
    Fares p now ticket full (.refused (.backendUnavailable p.name)) := by
  constructor <;> simp [nothing, out]

lemma fares_of_full (nothing : (p.tryLease now ticket).2 = none) (usable : ¬p.AllOut now)
    (noSpace : full) : Fares p now ticket full (.refused (.queueFull p.name)) := by
  constructor <;> simp [nothing, usable, noSpace]

lemma fares_of_space (nothing : (p.tryLease now ticket).2 = none) (usable : ¬p.AllOut now)
    (space : ¬full) : Fares p now ticket full .waits := by
  constructor <;> simp [nothing, usable, space]

/-- A request of the queue that looks is never refused for the queue's sake. -/
lemma fares_of_settleIn (p : Pool) (now ticket : Nat) :
    Fares p now ticket False (p.settleIn now ticket).2 := by
  cases found : p.tryLease now ticket with
  | mk q lease? =>
    cases lease? with
    | some lease =>
      have unspared : { p with spare := false }.tryLease now ticket =
          ({ q with woken := p.woken, spare := false }, some lease) := by
        rw [tryLease_with p.woken false, found]
      have outcome : (p.settleIn now ticket).2 = .granted lease := by
        unfold settleIn look
        split
        · rw [unspared]
        · rw [found]
      rw [outcome]
      exact fares_of_lease (congrArg Prod.snd found)
    | none =>
      have full := not_hasRoom_of_tryLease found
      have nothing : (p.tryLease now ticket).2 = none := congrArg Prod.snd found
      have looks := looks_of_settleIn p now ticket
      generalize p.settleIn now ticket = looked at looks ⊢
      obtain ⟨r, outcome⟩ := looked
      cases looks with
      | granted h => exact absurd h.hasRoom full
      | waits cursor _ usable =>
        exact fares_of_space nothing (hasUsableHost_eq_true_iff.mp usable) id
      | refused cursor _ unusable =>
        exact fares_of_allOut nothing (hasUsableHost_eq_false_iff.mp unusable)

lemma enter_of_none (found : p.tryLease now ticket = (q, none)) : p.enter now ticket =
    if p.hasUsableHost now = false then (q, .refused p.unavailable)
    else if 0 < p.options.maxQueueSize ∧ p.options.maxQueueSize ≤ p.queued then
      (q, .refused (.queueFull p.name))
    else { p with cursor := q.cursor, queued := p.queued + 1 }.settleIn now ticket := by
  rw [enter, found, tryLease_none found]
  simp only [Bool.not_eq_true']
  rfl

/-- The counter of the queue is the number of its requests and does not pass the limit. -/
lemma Orderly.isFull_iff (h : p.Orderly drawn) :
    (0 < p.options.maxQueueSize ∧ p.options.maxQueueSize ≤ p.queued) ↔
      0 < p.options.maxQueueSize ∧ p.parked = p.options.maxQueueSize := by
  have queued := h.queued
  have bounded := h.bounded
  unfold parked
  omega

/-- A request that comes in is refused for the queue's sake if there is no place left. -/
lemma fares_of_enter (h : p.Orderly drawn) (now ticket : Nat) :
    Fares p now ticket (0 < p.options.maxQueueSize ∧ p.parked = p.options.maxQueueSize)
      (p.enter now ticket).2 := by
  cases found : p.tryLease now ticket with
  | mk q lease? =>
    cases lease? with
    | some lease =>
      have outcome : (p.enter now ticket).2 = .granted lease := by rw [enter, found]
      rw [outcome]
      exact fares_of_lease (congrArg Prod.snd found)
    | none =>
      have nothing : (p.tryLease now ticket).2 = none := congrArg Prod.snd found
      rw [enter_of_none found, ← h.isFull_iff]
      split
      · next unusable => exact fares_of_allOut nothing (hasUsableHost_eq_false_iff.mp unusable)
      · next usable =>
        have some_ : ¬p.AllOut now := mt hasUsableHost_eq_false_iff.mpr usable
        split
        · next noSpace => exact fares_of_full nothing some_ noSpace
        · next space =>
          -- The request looks again as one of the queue. Nothing has changed for it.
          let joined : Pool := { p with cursor := q.cursor, queued := p.queued + 1 }
          have again : (joined.tryLease now ticket).2 = none :=
            tryLease_eq_none_iff.mpr (tryLease_eq_none_iff (p := p).mp nothing)
          have waits : (joined.settleIn now ticket).2 = .waits :=
            (fares_of_settleIn joined now ticket).waits.mpr ⟨again, some_, id⟩
          rw [waits]
          exact fares_of_space nothing some_ space

/-- The same entry with a place in the queue that is taken first and given back if there was none. -/
def enterByTicket (p : Pool) (now ticket : Nat) : Pool × Admittance :=
  match p.tryLeaseByHost now ticket with
  | (p, some lease) => (p, .granted lease)
  | (p, none) =>
    if p.hasUsableHost now then
      let joined := { p with queued := p.queued + 1 }
      if 0 < p.options.maxQueueSize ∧ p.options.maxQueueSize ≤ p.queued then
        (joined.leaveQueue, .refused (.queueFull p.name))
      else joined.settleIn now ticket
    else (p, .refused p.unavailable)

theorem enterByTicket_eq (p : Pool) (now ticket : Nat) :
    p.enterByTicket now ticket = p.enter now ticket := by
  rw [enterByTicket, tryLeaseByHost_eq, enter]
  cases p.tryLease now ticket with
  | mk q lease? =>
    cases lease? with
    | some lease => rfl
    | none => cases usable : q.hasUsableHost now <;> simp [usable, leaveQueue]

lemma Fares.of_woken {woken : List Woken} (h : Fares { p with woken } now ticket False outcome)
    (notFull : ¬full) : Fares p now ticket full outcome := by
  have same : ({ p with woken }.tryLease now ticket).2 = (p.tryLease now ticket).2 := by
    rw [tryLease_with woken p.spare]
  have never : full ↔ False := iff_false_intro notFull
  obtain ⟨granted, unavailable, queueFull, waits⟩ := h
  rw [same] at unavailable queueFull waits
  simp only [same] at granted
  exact ⟨granted, unavailable, by rwa [never], by rwa [never]⟩

/-- Where there is a place, nothing but hosts that are out leads to a refusal. -/
lemma Fares.eq_of_refused {f : Failure} (h : Fares p now ticket full (.refused f)) (space : ¬full) :
    f = .backendUnavailable p.name ∧ p.AllOut now := by
  have nothing : (p.tryLease now ticket).2 = none := by
    cases found : (p.tryLease now ticket).2 with
    | none => rfl
    | some lease => cases (h.granted lease).mpr found
  by_cases out : p.AllOut now
  · exact ⟨Admittance.refused.inj (h.unavailable.mpr ⟨nothing, out⟩), out⟩
  · cases h.waits.mpr ⟨nothing, out, space⟩

end Decision

section Steps

/-- The request that looks for a connection in a step as one that may wait, and how it fares. -/
def Moment.asked? (m : Moment) : Act → Option (Nat × Admittance)
  | .enter => some (m.drawn, (m.pool.enter m.now m.drawn).2)
  | .look k => m.pool.woken[k]?.map fun w => (w.ticket,
      ({ m.pool with woken := m.pool.woken.eraseIdx k }.settleIn m.now w.ticket).2)
  | _ => none

lemma Moment.asked?_cases (asked : m.asked? a = some (ticket, outcome)) :
    (a = .enter ∧ ticket = m.drawn ∧ outcome = (m.pool.enter m.now m.drawn).2 ∧
        (m.step a).pool = (m.pool.enter m.now m.drawn).1) ∨
      ∃ k w, a = .look k ∧ m.pool.woken[k]? = some w ∧ ticket = w.ticket ∧
        let look := { m.pool with woken := m.pool.woken.eraseIdx k }.settleIn m.now w.ticket
        outcome = look.2 ∧ (m.step a).pool = look.1 := by
  cases a with
  | enter =>
    obtain ⟨rfl, rfl⟩ := Prod.mk.inj (Option.some.inj asked)
    exact .inl ⟨rfl, rfl, rfl, rfl⟩
  | look k =>
    obtain ⟨w, at_, e⟩ := Option.map_eq_some_iff.mp asked
    obtain ⟨rfl, rfl⟩ := Prod.mk.inj e
    exact .inr ⟨k, w, rfl, at_, rfl, rfl, by simp only [step, at_]⟩
  | _ => cases asked

/-- Only a request that comes in can find the queue full. -/
lemma Moment.fares_of_asked (h : m.pool.Orderly m.drawn) (asked : m.asked? a = some (ticket, outcome)) :
    Fares m.pool m.now ticket (a = .enter ∧ 0 < m.pool.options.maxQueueSize ∧
      m.pool.parked = m.pool.options.maxQueueSize) outcome := by
  rcases asked?_cases asked with ⟨rfl, rfl, rfl, -⟩ | ⟨k, w, rfl, -, rfl, rfl, -⟩
  · simpa using fares_of_enter h m.now m.drawn
  · exact (fares_of_settleIn _ m.now w.ticket).of_woken (by simp)

/-- A request that asks has a place afterwards if it waits. -/
lemma Moment.parks_of_asked (h : m.pool.Orderly m.drawn) (asked : m.asked? a = some (ticket, outcome)) :
    (m.step a).pool.Parks ticket ↔ outcome = .waits := by
  have places : (m.step a).pool.placesOf ticket = outcome.places := by
    rcases asked?_cases asked with ⟨-, rfl, rfl, next⟩ | ⟨k, w, -, at_, rfl, rfl, next⟩
    · rw [next, (turn_enter h (Nat.le_refl _)).places, if_pos rfl]
    · rw [next, (turn_settleIn h at_).places, if_pos rfl]
  rw [parks_iff, places]
  cases outcome <;> simp [Admittance.places]

lemma Orderly.placesOf_woken (h : p.Orderly drawn) {k : Nat} {w : Woken} (at_ : p.woken[k]? = some w) :
    p.placesOf w.ticket = 1 := by
  have once := h.once w.ticket
  have some_ : 0 < p.placesOf w.ticket :=
    parks_iff.mp (.inr ⟨w, List.mem_of_getElem? at_, rfl⟩)
  rw [uses_eq] at once
  omega

/-- A refusal leaves hosts and leases alone. It takes along the place that the request had. -/
lemma Moment.still_of_refused (h : m.pool.Orderly m.drawn) {f : Failure}
    (asked : m.asked? a = some (ticket, .refused f)) :
    (m.step a).pool.hosts = m.pool.hosts ∧ (m.step a).pool.leases = m.pool.leases ∧
      (m.step a).pool.queued + (if a = .enter then 0 else 1) = m.pool.queued := by
  rcases asked?_cases asked with ⟨rfl, rfl, outcome, next⟩ | ⟨k, w, rfl, at_, rfl, outcome, next⟩
  · have turn : Turn m.pool (m.pool.enter m.now m.drawn).1 _ _ _ := turn_enter h (Nat.le_refl _)
    have queued := turn.queued
    rw [(h.unused (Nat.le_refl _)).2, ← outcome, Admittance.places] at queued
    rw [next]
    have entry := enters_of_enter m.pool m.now m.drawn
    rw [← outcome] at entry
    generalize (m.pool.enter m.now m.drawn).1 = q at entry queued ⊢
    cases entry with
    | refused cursor => exact ⟨rfl, rfl, queued⟩
  · let called : Pool := { m.pool with woken := m.pool.woken.eraseIdx k }
    have turn : Turn m.pool (called.settleIn m.now w.ticket).1 _ _ _ := turn_settleIn h at_
    have queued := turn.queued
    rw [h.placesOf_woken at_, ← outcome, Admittance.places] at queued
    rw [next]
    have looks := looks_of_settleIn called m.now w.ticket
    rw [← outcome] at looks
    generalize (called.settleIn m.now w.ticket).1 = q at looks queued ⊢
    cases looks with
    | refused cursor => exact ⟨rfl, rfl, queued⟩

/-- In this step the request goes away, gets a lease, or is refused while all hosts are out. -/
def Moment.Leaves (m : Moment) (a : Act) (ticket : Nat) : Prop :=
  a = .cancel ticket ∨ (∃ lease, m.asked? a = some (ticket, .granted lease)) ∨
    m.asked? a = some (ticket, .refused (.backendUnavailable m.pool.name)) ∧ m.pool.AllOut m.now

/-- A step that is nothing of these leaves the request its place. -/
theorem Moment.step_parks (h : m.pool.Orderly m.drawn) (parks : m.pool.Parks ticket) (a : Act) :
    (m.step a).pool.Parks ticket ∨ m.Leaves a ticket := by
  have other : ticket ≠ m.drawn := by
    rintro rfl
    rw [parks_iff, (h.unused (Nat.le_refl _)).2] at parks
    exact absurd parks (Nat.lt_irrefl 0)
  have same {q : Pool} (places : q.placesOf ticket = m.pool.placesOf ticket) : q.Parks ticket := by
    rwa [parks_iff, places, ← parks_iff]
  cases a with
  | wait milliseconds => exact .inl parks
  | wakeDue => exact .inl (same ((still_wakeDue m.pool m.now).places ticket))
  | tryLease =>
    exact .inl (same (((turn_tryLease h (Nat.le_refl _)).places ticket).trans (if_neg other)))
  | enter => exact .inl (same (((turn_enter h (Nat.le_refl _)).places ticket).trans (if_neg other)))
  | look k =>
    cases at_ : m.pool.woken[k]? with
    | none => exact .inl (by simpa only [step, at_] using parks)
    | some w =>
      by_cases own : ticket = w.ticket
      · subst own
        have asked : m.asked? (.look k) = some (w.ticket, _) := congrArg (Option.map _) at_
        have fares := fares_of_asked h asked
        rw [parks_of_asked h asked]
        generalize ({ m.pool with woken := m.pool.woken.eraseIdx k }.settleIn m.now w.ticket).2 = outcome
          at asked fares ⊢
        cases outcome with
        | granted lease => exact .inr (.inr (.inl ⟨lease, asked⟩))
        | refused f =>
          obtain ⟨rfl, out⟩ := fares.eq_of_refused (by simp)
          exact .inr (.inr (.inr ⟨asked, out⟩))
        | waits => exact .inl rfl
      · simp only [step, at_]
        exact .inl (same (((turn_settleIn h at_).places ticket).trans (if_neg own)))
  | cancel t =>
    by_cases own : ticket = t
    · exact .inr (.inl (congrArg Act.cancel own.symm))
    · exact .inl (same (((turn_cancel h t).places ticket).trans (if_neg own)))
  | reportFailure t => exact .inl (same ((still_reportFailure m.pool m.now t).places ticket))
  | reportSuccess t => exact .inl (same ((still_reportSuccess m.pool t).places ticket))
  | release t =>
    refine .inl (same (((turn_release m.pool t).places ticket).trans ?_))
    split
    · next own => rw [own]
    · rfl

/-- A request keeps its place until one of its steps comes. -/
theorem Moment.run_parks (acts : List Act) {m : Moment} (h : m.pool.Orderly m.drawn)
    (parks : m.pool.Parks ticket) : (m.run acts).pool.Parks ticket ∨
      ∃ before a after, acts = before ++ a :: after ∧ (m.run before).pool.Parks ticket ∧
        (m.run before).Leaves a ticket := by
  induction acts generalizing m with
  | nil => exact .inl parks
  | cons a rest ih =>
    rcases step_parks h parks a with stays | leaves
    · rcases ih (step_orderly h a) stays with still | ⟨before, b, after, rfl, there, leaves⟩
      · exact .inl still
      · exact .inr ⟨a :: before, b, after, rfl, there, leaves⟩
    · exact .inr ⟨[], a, rest, rfl, parks, leaves⟩

end Steps

/-- However a pool has been used, a request that comes in or looks again gets the lease that a look finds,
is refused while all hosts are out, and otherwise waits, unless it comes in and the queue is full. A
refusal leaves hosts and leases alone and only takes the request off the queue. A request that waits
goes on doing so until it goes away, gets a lease, or is refused while all hosts are out. -/
theorem Moment.acquisitions (name : String) (hosts : List Host) (options : PoolOptions)
    (acts : List Act) :
    let start : Moment := { pool := { name, hosts, options } }
    let m := start.run acts
    let full := 0 < options.maxQueueSize ∧ m.pool.parked = options.maxQueueSize
    m.pool.queued = m.pool.parked ∧
      m.pool.enterByTicket m.now m.drawn = m.pool.enter m.now m.drawn ∧
      (∀ a ticket outcome, m.asked? a = some (ticket, outcome) →
        Fares m.pool m.now ticket (a = .enter ∧ full) outcome ∧
        ((m.step a).pool.Parks ticket ↔ outcome = .waits) ∧
        ∀ f, outcome = .refused f → (m.step a).pool.hosts = m.pool.hosts ∧
          (m.step a).pool.leases = m.pool.leases ∧
          (m.step a).pool.queued + (if a = .enter then 0 else 1) = m.pool.queued) ∧
      ∀ ticket, m.pool.Parks ticket → ∀ more, (m.run more).pool.Parks ticket ∨
        ∃ before a after, more = before ++ a :: after ∧ (m.run before).pool.Parks ticket ∧
          (m.run before).Leaves a ticket := by
  intro start m full
  have orderly : m.pool.Orderly m.drawn := Moment.run_orderly (orderly_start name hosts options) acts
  have made : m.pool.options = options := start.options_run acts
  refine ⟨orderly.queued, enterByTicket_eq .., fun a ticket outcome asked => ?_,
    fun ticket parks more => run_parks more orderly parks⟩
  have fares := fares_of_asked orderly asked
  rw [made] at fares
  refine ⟨fares, parks_of_asked orderly asked, ?_⟩
  rintro f rfl
  exact still_of_refused orderly asked

/-- The only connection is leased and one request waits. The next one finds the queue full. The one that
waits is refused once the host fails. -/
theorem Moment.acquisitions_of_busy_host :
    let host : Host := { uri := {}, authority := "h0:80", basePath := "", budget := 1 }
    let options : PoolOptions := { maxQueueSize := 1 }
    let m := Moment.run { pool := { name := "api", hosts := [host], options } } [.tryLease, .enter]
    let more : List Act := [.reportFailure 0, .look 0]
    m.asked? .enter = some (2, .refused (.queueFull "api")) ∧ ¬m.pool.AllOut m.now ∧
      (m.step .enter).pool.queued = m.pool.queued ∧ m.pool.Parks 1 ∧ ¬(m.run more).pool.Parks 1 ∧
      ∃ before a after, more = before ++ a :: after ∧ (m.run before).pool.Parks 1 ∧
        (m.run before).Leaves a 1 := by
  intro host options m more
  have asked : m.asked? .enter = some (2, .refused (.queueFull "api")) := by decide
  have parks : m.pool.Parks 1 := .inl ⟨⟨1, 10000⟩, by decide, rfl⟩
  have gone : ¬(m.run more).pool.Parks 1 := by
    rw [parks_iff]
    decide
  have fold : Moment.run { pool := { name := "api", hosts := [host], options } } [.tryLease, .enter] = m :=
    rfl
  obtain ⟨-, -, entries, keeps⟩ := acquisitions "api" [host] options [.tryLease, .enter]
  obtain ⟨fares, -, still⟩ := entries .enter 2 _ asked
  obtain ⟨-, -, queued⟩ := still _ rfl
  rw [if_pos rfl, Nat.add_zero, fold] at queued
  have named : m.pool.name = "api" := by decide
  have usable : ¬m.pool.AllOut m.now := (fares.queueFull.mp (by rw [named])).2.1
  exact ⟨asked, usable, queued, parks, gone, (keeps 1 parks more).resolve_left gone⟩

end Gateway.Pool
