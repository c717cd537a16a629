import Gateway.Proofs.Balance.Steps

/-! What a look for a connection comes to. It finds one exactly if a host with room is healthy or due
for a test; otherwise the request waits or is refused, and the hosts stay as they are. -/
namespace Gateway

namespace Rotation
variable {hosts : List Host} {cursor i : Nat}

/-- The rotation comes round to every position. -/
lemma mem_order {n : Nat} (lt : i < n) : i ∈ order n cursor := by
  refine List.mem_map.mpr ⟨(i + n - cursor % n) % n, List.mem_range.mpr (Nat.mod_lt _ (by omega)), ?_⟩
  have small : cursor % n < n := Nat.mod_lt _ (by omega)
  have parts : cursor + (i + n - cursor % n) = i + n * (cursor / n + 1) := by
    have whole := Nat.div_add_mod cursor n
    rw [Nat.mul_add, Nat.mul_one]
    omega
  rw [Nat.add_mod_mod, parts, Nat.add_mul_mod_self_left, Nat.mod_eq_of_lt lt]

lemma better_isSome (best : Option (Nat × Nat)) (c : Nat × Nat) : (better best c).isSome = true := by
  unfold better
  split
  · rfl
  · split <;> rfl

lemma foldl_better_isSome {list : List (Nat × Nat)} {best : Option (Nat × Nat)}
    (h : best.isSome = true) : (list.foldl better best).isSome = true := by
  induction list generalizing best with
  | nil => exact h
  | cons c rest ih => exact ih (better_isSome best c)

/-- The rotation passes no candidate over. -/
lemma not_isCandidate_of_choose (h : choose hosts cursor = none) {host : Host} (hm : host ∈ hosts) :
    isCandidate host = false := by
  obtain ⟨i, lt, rfl⟩ := List.getElem_of_mem hm
  by_contra can
  rw [Bool.not_eq_false] at can
  have found : (i, hosts[i].available) ∈ candidates hosts cursor := by
    refine List.mem_filterMap.mpr ⟨i, mem_order lt, ?_⟩
    simp [List.getElem?_eq_getElem lt, Option.filter, can]
  rw [choose, Option.map_eq_none_iff] at h
  cases e : candidates hosts cursor with
  | nil => simp [e] at found
  | cons c rest =>
    have chosen : (rest.foldl better (better none c)).isSome = true :=
      foldl_better_isSome (better_isSome none c)
    rw [e, List.foldl_cons] at h
    rw [h] at chosen
    cases chosen

end Rotation

namespace Pool
/-- Some host has room for a request. -/
def HasRoom (p : Pool) (now : Nat) : Prop :=
  ∃ h ∈ p.hosts, 0 < h.available ∧ (h.isHealthy = true ∨ h.isDue now p.options.delay = true)

/-- The pool after a connection of host `i` went to a ticket. -/
def leased (p : Pool) (i : Nat) (probe : Bool) (ticket : Nat) : Pool :=
  { p with
    hosts := p.hosts.modify i fun h => (if probe then h.beginProbe else h).claim
    leases := p.leases ++ [{ ticket, host := i, probe }] }

/-- How a look succeeds: with a test of a due host, or else with a connection of a healthy one. -/
inductive Grants (p : Pool) (now ticket : Nat) : Pool → Lease → Prop where
  | test {i : Nat} {h : Host} (at_ : p.hosts[i]? = some h)
      (due : h.isDue now p.options.delay = true) (room : 0 < h.available) :
      Grants p now ticket (p.leased i true ticket) ⟨ticket, h.authority, h.basePath, true⟩
  | choice {i : Nat} {h : Host} (cursor : Nat) (at_ : p.hosts[i]? = some h)
      (healthy : h.isHealthy = true) (room : 0 < h.available) :
      Grants p now ticket { p.leased i false ticket with cursor }
        ⟨ticket, h.authority, h.basePath, false⟩

/-- How a queued request fares that looks. -/
inductive Looks (p : Pool) (now ticket : Nat) : Pool → Admittance → Prop where
  | granted {q : Pool} {lease : Lease} (h : Grants p now ticket q lease) :
      Looks p now ticket q.leaveQueue (.granted lease)
  | waits (cursor : Nat) (full : ¬p.HasRoom now) (usable : p.hasUsableHost now = true) :
      Looks p now ticket
        { p with cursor, waiting := p.waiting ++ [⟨ticket, now + p.options.retry⟩] } .waits
  | refused (cursor : Nat) (full : ¬p.HasRoom now) (unusable : p.hasUsableHost now = false) :
      Looks p now ticket { p with cursor }.leaveQueue (.refused p.unavailable)

/-- How a request fares that comes in. It gets a connection at once or joins the queue. -/
inductive Enters (p : Pool) (now ticket : Nat) : Pool → Admittance → Prop where
  | granted {q : Pool} {lease : Lease} (h : Grants p now ticket q lease) :
      Enters p now ticket q (.granted lease)
  | refused (cursor : Nat) (f : Failure) : Enters p now ticket { p with cursor } (.refused f)
  | waits (cursor : Nat) (full : ¬p.HasRoom now) (usable : p.hasUsableHost now = true)
      (space : 0 < p.options.maxQueueSize → p.queued < p.options.maxQueueSize) :
      Enters p now ticket
        { p with
          cursor, spare := false, queued := p.queued + 1
          waiting := p.waiting ++ [⟨ticket, now + p.options.retry⟩] } .waits

variable {p q : Pool} {now ticket : Nat} {lease : Lease}

lemma Grants.hasRoom (h : Grants p now ticket q lease) : p.HasRoom now := by
  cases h with
  | test at_ due room => exact ⟨_, List.mem_of_getElem? at_, room, .inr due⟩
  | choice cursor at_ healthy room => exact ⟨_, List.mem_of_getElem? at_, room, .inl healthy⟩

lemma Grants.ticket_eq (h : Grants p now ticket q lease) : lease.ticket = ticket := by
  cases h <;> rfl

lemma grants_of_tryLease (h : p.tryLease now ticket = (q, some lease)) :
    Grants p now ticket q lease := by
  unfold tryLease at h
  split at h
  · next i host found =>
    obtain ⟨j, first, at_, rfl⟩ := exists_of_found found
    obtain ⟨host', at', due, room⟩ := exists_of_dueHost first
    obtain rfl := Option.some.inj (at_.symm.trans at')
    have twice : (p.hosts.modify j Host.beginProbe).modify j Host.claim =
        p.hosts.modify j fun h => h.beginProbe.claim := List.modify_modify_eq ..
    obtain ⟨rfl, e⟩ := Prod.mk.inj h
    obtain rfl := Option.some.inj e
    have made : Grants p now ticket _ _ := .test at_ due room
    dsimp only [leased, if_true] at made
    dsimp only [grant, updateHost]
    rw [twice]
    exact made
  · dsimp only at h
    split at h
    · next i host found =>
      obtain ⟨j, chosen, at_, rfl⟩ := exists_of_found found
      obtain ⟨host', at', healthy, room⟩ := Rotation.exists_of_choose chosen
      obtain rfl := Option.some.inj (at_.symm.trans at')
      obtain ⟨rfl, e⟩ := Prod.mk.inj h
      obtain rfl := Option.some.inj e
      exact .choice _ at_ healthy room
    · cases (Prod.mk.inj h).2

/-- A look without success has tried every host. -/
lemma not_hasRoom_of_tryLease (h : p.tryLease now ticket = (q, none)) : ¬p.HasRoom now := by
  rintro ⟨host, hm, room, can⟩
  obtain ⟨i, lt, rfl⟩ := List.getElem_of_mem hm
  unfold tryLease at h
  split at h
  · cases (Prod.mk.inj h).2
  · next nothing =>
    have undue : p.dueHost? now = none := by
      cases e : p.dueHost? now with
      | none => rfl
      | some j =>
        obtain ⟨other, at_, -⟩ := exists_of_dueHost e
        simp [e, at_] at nothing
    dsimp only at h
    split at h
    · cases (Prod.mk.inj h).2
    · next nobody =>
      have unchosen : Rotation.choose p.hosts p.cursor = none := by
        cases e : Rotation.choose p.hosts p.cursor with
        | none => rfl
        | some j =>
          obtain ⟨other, at_, -⟩ := Rotation.exists_of_choose e
          simp [Rotation.next, e, at_] at nobody
      rcases can with healthy | due
      · have passed := Rotation.not_isCandidate_of_choose unchosen hm
        simp [Rotation.isCandidate, healthy, room] at passed
      · have skipped := List.findIdx?_eq_none_iff.mp undue _ hm
        simp [due, room] at skipped

lemma looks_of_look (p : Pool) (now ticket : Nat) :
    Looks p now ticket (p.look now ticket).1 (p.look now ticket).2 := by
  unfold look
  split
  · next q lease e => exact .granted (grants_of_tryLease e)
  · next q e =>
    have full := not_hasRoom_of_tryLease e
    rw [tryLease_none e]
    split
    · next usable => exact .waits q.cursor full usable
    · next unusable => exact .refused q.cursor full (Bool.eq_false_iff.mpr unusable)

/-- Whether or not a release is remembered, a request that settles in looks once with a chance. -/
lemma looks_of_settleIn (p : Pool) (now ticket : Nat) :
    Looks { p with spare := false } now ticket (p.settleIn now ticket).1
      (p.settleIn now ticket).2 := by
  unfold settleIn
  split
  · split
    · next q lease e => exact .granted (grants_of_tryLease e)
    · next q e =>
      have full := not_hasRoom_of_tryLease e
      rw [tryLease_none e]
      split
      · next usable =>
        have again := looks_of_look { p with spare := false, cursor := q.cursor } now ticket
        generalize ({ p with spare := false, cursor := q.cursor } : Pool).look now ticket = found
          at again
        obtain ⟨r, outcome⟩ := found
        cases again with
        | granted h => exact absurd h.hasRoom full
        | waits cursor _ _ => exact .waits cursor full usable
        | refused cursor _ unusable => exact absurd usable (Bool.eq_false_iff.mp unusable)
      · next unusable => exact .refused q.cursor full (Bool.eq_false_iff.mpr unusable)
  · next none =>
    have same : { p with spare := false } = p := by
      rw [← Bool.eq_false_iff.mpr none]
    rw [same]
    exact looks_of_look p now ticket

lemma enters_of_enter (p : Pool) (now ticket : Nat) :
    Enters p now ticket (p.enter now ticket).1 (p.enter now ticket).2 := by
  unfold enter
  split
  · next q lease e => exact .granted (grants_of_tryLease e)
  · next q e =>
    have full := not_hasRoom_of_tryLease e
    rw [tryLease_none e]
    split
    · exact .refused q.cursor _
    · next usable =>
      split
      · exact .refused q.cursor _
      · next space =>
        have look := looks_of_settleIn { p with cursor := q.cursor, queued := p.queued + 1 } now ticket
        generalize ({ p with cursor := q.cursor, queued := p.queued + 1 } : Pool).settleIn now ticket =
          found at look
        obtain ⟨r, outcome⟩ := found
        have usable : p.hasUsableHost now = true := by
          by_contra no
          exact usable (congrArg not (Bool.eq_false_iff.mpr no))
        cases look with
        | granted h => exact absurd h.hasRoom full
        | waits cursor _ _ =>
          refine .waits cursor full usable fun bounded => ?_
          dsimp only at space
          omega
        | refused cursor _ unusable => exact absurd usable (Bool.eq_false_iff.mp unusable)

section Options

/-! No operation changes the options of a pool. -/

lemma Grants.options_eq (h : Grants p now ticket q lease) : q.options = p.options := by
  cases h <;> rfl

@[simp] lemma options_tryLease : (p.tryLease now ticket).1.options = p.options := by
  cases e : p.tryLease now ticket with
  | mk q found =>
    cases found with
    | some lease => exact (grants_of_tryLease e).options_eq
    | none => rw [tryLease_none e]

@[simp] lemma options_settleIn : (p.settleIn now ticket).1.options = p.options := by
  have look := looks_of_settleIn p now ticket
  generalize p.settleIn now ticket = found at look
  obtain ⟨q, outcome⟩ := found
  cases look with
  | granted h => exact h.options_eq
  | waits => rfl
  | refused => rfl

@[simp] lemma options_enter : (p.enter now ticket).1.options = p.options := by
  have entry := enters_of_enter p now ticket
  generalize p.enter now ticket = found at entry
  obtain ⟨q, outcome⟩ := found
  cases entry with
  | granted h => exact h.options_eq
  | refused => rfl
  | waits => rfl

@[simp] lemma options_wakeOne : p.wakeOne.options = p.options := by
  unfold wakeOne
  split <;> rfl

@[simp] lemma options_cancel : (p.cancel ticket).options = p.options := by
  unfold cancel
  split
  · rfl
  · split
    · rfl
    · dsimp only
      split
      · exact options_wakeOne
      · rfl

@[simp] lemma options_release : (p.release ticket).1.options = p.options := by
  unfold release
  split
  · rfl
  · exact options_wakeOne

@[simp] lemma options_reportFailure : (p.reportFailure now ticket).1.options = p.options := by
  unfold reportFailure
  split <;> rfl

@[simp] lemma options_reportSuccess : (p.reportSuccess ticket).1.options = p.options := by
  unfold reportSuccess
  split
  · rfl
  · split <;> rfl

@[simp] lemma Moment.options_step (m : Moment) (a : Act) :
    (m.step a).pool.options = m.pool.options := by
  cases a with
  | wait milliseconds => rfl
  | wakeDue => rfl
  | tryLease => exact options_tryLease
  | enter => exact options_enter
  | look k =>
    unfold step
    dsimp only
    split
    · exact options_settleIn
    · rfl
  | cancel ticket => exact options_cancel
  | reportFailure ticket => exact options_reportFailure
  | reportSuccess ticket => exact options_reportSuccess
  | release ticket => exact options_release

@[simp] lemma Moment.options_run (m : Moment) (acts : List Act) :
    (m.run acts).pool.options = m.pool.options := by
  induction acts generalizing m with
  | nil => rfl
  | cons a rest ih => exact (ih (m.step a)).trans (m.options_step a)

end Options

end Pool
end Gateway
