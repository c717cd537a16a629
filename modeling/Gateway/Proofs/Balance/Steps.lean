import Mathlib.Data.List.Basic
import Gateway.Balance.Pool

/-! Pools over time. Requests ask, wait and go away, holders of leases report and give back, all in any
order; every step does one of a few things to the hosts and the leases on them. -/
namespace Gateway

namespace Rotation
variable {hosts : List Host} {cursor i : Nat} {best c : Nat × Nat}

lemma better_eq_some {start : Option (Nat × Nat)} (h : better start c = some best) :
    start = some best ∨ c = best := by
  unfold better at h
  split at h
  · exact .inr (Option.some.inj h)
  · split at h
    · exact .inr (Option.some.inj h)
    · exact .inl h

lemma mem_of_foldl_better {list : List (Nat × Nat)} {start : Option (Nat × Nat)}
    (h : list.foldl better start = some best) : start = some best ∨ best ∈ list := by
  induction list generalizing start with
  | nil => exact .inl h
  | cons c rest ih =>
    rcases ih h with h | h
    · rcases better_eq_some h with h | rfl
      · exact .inl h
      · exact .inr List.mem_cons_self
    · exact .inr (List.mem_cons_of_mem _ h)

/-- The rotation chooses among healthy hosts with room. -/
lemma exists_of_choose (h : choose hosts cursor = some i) :
    ∃ host, hosts[i]? = some host ∧ host.isHealthy = true ∧ 0 < host.available := by
  obtain ⟨best, chosen, rfl⟩ := Option.map_eq_some_iff.mp h
  obtain member := (mem_of_foldl_better chosen).resolve_left nofun
  obtain ⟨i, -, found⟩ := List.mem_filterMap.mp member
  obtain ⟨host, candidate, rfl⟩ := Option.map_eq_some_iff.mp found
  obtain ⟨at_, can⟩ := Option.filter_eq_some_iff.mp candidate
  rw [isCandidate, Bool.and_eq_true, decide_eq_true_eq] at can
  exact ⟨host, at_, can⟩

end Rotation

/-- A test of its host that has no outcome yet. -/
def LiveLease.isOpenProbe (l : LiveLease) : Bool := l.probe && !l.settled

namespace Pool

/-- The hosts of a pool and the leases on them. -/
structure Ledger where
  hosts : List Host
  leases : List LiveLease

def ledger (p : Pool) : Ledger := ⟨p.hosts, p.leases⟩

/-- The lease of a ticket. -/
def Ledger.live? (b : Ledger) (ticket : Nat) : Option LiveLease :=
  b.leases.find? (·.ticket = ticket)

def Ledger.settled (b : Ledger) (ticket : Nat) : List LiveLease :=
  b.leases.map fun l => if l.ticket = ticket then { l with settled := true } else l

def Ledger.without (b : Ledger) (ticket : Nat) : List LiveLease :=
  b.leases.filter (·.ticket ≠ ticket)

/-- A pool in time, with the number of tickets drawn so far. -/
structure Moment where
  pool : Pool
  now : Nat := 0
  drawn : Nat := 0

inductive Act where
  | wait (milliseconds : Nat)
  | wakeDue
  | tryLease
  | enter
  /-- One of the requests that were woken looks again. They need not do so in order. -/
  | look (k : Nat)
  | cancel (ticket : Nat)
  | reportFailure (ticket : Nat)
  | reportSuccess (ticket : Nat)
  | release (ticket : Nat)
  deriving DecidableEq

/-- A step of a pool. What refers to no one has no effect. -/
def Moment.step (m : Moment) : Act → Moment
  | .wait milliseconds => { m with now := m.now + milliseconds }
  | .wakeDue => { m with pool := m.pool.wakeDue m.now }
  | .tryLease => { m with pool := (m.pool.tryLease m.now m.drawn).1, drawn := m.drawn + 1 }
  | .enter => { m with pool := (m.pool.enter m.now m.drawn).1, drawn := m.drawn + 1 }
  | .look k =>
    match m.pool.woken[k]? with
    | some w =>
      { m with pool :=
          ({ m.pool with woken := m.pool.woken.eraseIdx k }.settleIn m.now w.ticket).1 }
    | none => m
  | .cancel ticket => { m with pool := m.pool.cancel ticket }
  | .reportFailure ticket => { m with pool := (m.pool.reportFailure m.now ticket).1 }
  | .reportSuccess ticket => { m with pool := (m.pool.reportSuccess ticket).1 }
  | .release ticket => { m with pool := (m.pool.release ticket).1 }

def Moment.run (m : Moment) (acts : List Act) : Moment := acts.foldl Moment.step m

/-- What an act at a time can do to hosts and leases. -/
inductive Shift (now retry : Nat) : Act → Ledger → Ledger → Prop where
  | rest (a : Act) (b : Ledger) : Shift now retry a b b
  | leased {b : Ledger} {i : Nat} {h : Host} (a : Act) (ticket : Nat) (at_ : b.hosts[i]? = some h)
      (healthy : h.isHealthy = true) (room : 0 < h.available) :
      Shift now retry a b
        ⟨b.hosts.modify i Host.claim, b.leases ++ [{ ticket, host := i, probe := false }]⟩
  | probed {b : Ledger} {i : Nat} {h : Host} (a : Act) (ticket : Nat) (at_ : b.hosts[i]? = some h)
      (due : h.isDue now retry = true) (room : 0 < h.available) :
      Shift now retry a b ⟨b.hosts.modify i fun h => h.beginProbe.claim,
        b.leases ++ [{ ticket, host := i, probe := true }]⟩
  | failed {b : Ledger} {l : LiveLease} {h : Host} (ticket : Nat)
      (live : b.live? ticket = some l) (at_ : b.hosts[l.host]? = some h) :
      Shift now retry (.reportFailure ticket) b
        ⟨b.hosts.modify l.host (·.markProblem now), b.settled ticket⟩
  | succeeded {b : Ledger} {l : LiveLease} {h : Host} (ticket : Nat)
      (live : b.live? ticket = some l) (at_ : b.hosts[l.host]? = some h)
      (probe : l.probe = true) :
      Shift now retry (.reportSuccess ticket) b
        ⟨b.hosts.modify l.host Host.markHealthy, b.settled ticket⟩
  | released {b : Ledger} {l : LiveLease} (ticket : Nat)
      (live : b.live? ticket = some l) :
      Shift now retry (.release ticket) b
        ⟨b.hosts.modify l.host fun h => ((if l.isOpenProbe then Host.abandonProbe else id) h).free,
          b.without ticket⟩

lemma map_modify_of_keeps {α β : Type} {g : α → β} {f : α → α} (keeps : ∀ a, g (f a) = g a)
    (list : List α) (i : Nat) : (list.modify i f).map g = list.map g := by
  refine List.ext_getElem? fun j => ?_
  simp only [List.getElem?_map, List.getElem?_modify, Option.map_eq_map, Option.map_map]
  congr 1
  funext a
  dsimp only [Function.comp_apply]
  split
  · exact keeps a
  · rfl

/-- Nothing of a host changes but its connections and its health. -/
lemma Shift.map_hosts {β : Type} {now retry : Nat} {a : Act} {b b' : Ledger}
    (h : Shift now retry a b b') (g : Host → β) (fixed : ∀ (host : Host) active state problemSince,
      g { host with active, state, problemSince } = g host) : b'.hosts.map g = b.hosts.map g := by
  cases h with
  | rest => rfl
  | leased => exact map_modify_of_keeps (fun host => fixed host _ _ _) ..
  | probed => exact map_modify_of_keeps (fun host => fixed host _ _ _) ..
  | failed => exact map_modify_of_keeps (fun host => fixed host _ _ _) ..
  | succeeded => exact map_modify_of_keeps (fun host => fixed host _ _ _) ..
  | released =>
    refine map_modify_of_keeps (fun host => ?_) ..
    split
    · unfold Host.abandonProbe
      split <;> exact fixed host _ _ _
    · exact fixed host _ _ _

variable {p q : Pool} {now ticket : Nat} {m : Moment} {a : Act}

/-- Whoever is found by way of a position stands there. -/
lemma exists_of_found {α β γ : Type} {o : Option α} {list : List β} {position : α → Nat}
    {f : α → γ} {x : γ} {b : β}
    (found : (o.bind fun a => list[position a]?.map (f a, ·)) = some (x, b)) :
    ∃ a, o = some a ∧ list[position a]? = some b ∧ f a = x := by
  obtain ⟨a, first, member⟩ := Option.bind_eq_some_iff.mp found
  obtain ⟨other, at_, e⟩ := Option.map_eq_some_iff.mp member
  obtain ⟨same, rfl⟩ := Prod.mk.inj e
  exact ⟨a, first, at_, same⟩

/-- A due host with room is tested. -/
lemma exists_of_dueHost {i : Nat} (h : p.dueHost? now = some i) :
    ∃ host, p.hosts[i]? = some host ∧ host.isDue now p.options.delay = true ∧ 0 < host.available := by
  obtain ⟨lt, can, -⟩ := List.findIdx?_eq_some_iff_getElem.mp h
  rw [Bool.and_eq_true, decide_eq_true_eq] at can
  exact ⟨p.hosts[i], List.getElem?_eq_getElem lt, can⟩

lemma tryLease_shift (a : Act) (p : Pool) (now ticket : Nat) :
    Shift now p.options.delay a p.ledger (p.tryLease now ticket).1.ledger := by
  unfold tryLease
  split
  · next i h found =>
    obtain ⟨j, first, at_, rfl⟩ := exists_of_found found
    obtain ⟨other, at_', due, room⟩ := exists_of_dueHost first
    obtain rfl := Option.some.inj (at_.symm.trans at_')
    have once : (p.hosts.modify j Host.beginProbe).modify j Host.claim =
        p.hosts.modify j fun h => h.beginProbe.claim := List.modify_modify_eq ..
    dsimp only [grant, updateHost, ledger]
    rw [once]
    exact .probed a ticket at_ due room
  · dsimp only
    split
    · next i h found =>
      obtain ⟨j, chosen, at_, rfl⟩ := exists_of_found found
      obtain ⟨other, at_', healthy, room⟩ := Rotation.exists_of_choose chosen
      obtain rfl := Option.some.inj (at_.symm.trans at_')
      exact .leased a ticket at_ healthy room
    · exact .rest a _

/-- Without a lease only the cursor moves. -/
lemma tryLease_none (h : p.tryLease now ticket = (q, none)) : q = { p with cursor := q.cursor } := by
  unfold tryLease at h
  split at h
  · cases (Prod.mk.inj h).2
  · dsimp only at h
    split at h
    · cases (Prod.mk.inj h).2
    · obtain ⟨rfl, -⟩ := Prod.mk.inj h
      rfl

lemma look_shift (a : Act) (p : Pool) (now ticket : Nat) :
    Shift now p.options.delay a p.ledger (p.look now ticket).1.ledger := by
  have first := tryLease_shift a p now ticket
  unfold look
  split
  · next q lease e =>
    rw [e] at first
    exact first
  · next q e =>
    rw [tryLease_none e]
    split
    · exact .rest a _
    · exact .rest a _

lemma settleIn_shift (a : Act) (p : Pool) (now ticket : Nat) :
    Shift now p.options.delay a p.ledger (p.settleIn now ticket).1.ledger := by
  unfold settleIn
  split
  · have first := tryLease_shift a { p with spare := false } now ticket
    split
    · next q lease e =>
      rw [e] at first
      exact first
    · next q e =>
      rw [tryLease_none e]
      split
      · exact look_shift a { p with spare := false, cursor := q.cursor } now ticket
      · exact .rest a _
  · exact look_shift a p now ticket

lemma enter_shift (a : Act) (p : Pool) (now ticket : Nat) :
    Shift now p.options.delay a p.ledger (p.enter now ticket).1.ledger := by
  have first := tryLease_shift a p now ticket
  unfold enter
  split
  · next q lease e =>
    rw [e] at first
    exact first
  · next q e =>
    rw [tryLease_none e]
    split
    · exact .rest a _
    · split
      · exact .rest a _
      · exact settleIn_shift a { p with cursor := q.cursor, queued := p.queued + 1 } now ticket

@[simp] lemma ledger_wakeOne : p.wakeOne.ledger = p.ledger := by
  unfold wakeOne
  split <;> rfl

lemma ledger_cancel : (p.cancel ticket).ledger = p.ledger := by
  unfold cancel
  split
  · rfl
  · split
    · rfl
    · dsimp only
      split
      · rw [ledger_wakeOne]
        rfl
      · rfl

lemma reportFailure_shift (p : Pool) (now ticket : Nat) :
    Shift now p.options.delay (.reportFailure ticket) p.ledger
      (p.reportFailure now ticket).1.ledger := by
  unfold reportFailure
  split
  · exact .rest _ _
  · next i h found =>
    obtain ⟨l, live, at_, rfl⟩ := exists_of_found found
    exact .failed ticket live at_

lemma reportSuccess_shift (p : Pool) (now ticket : Nat) :
    Shift now p.options.delay (.reportSuccess ticket) p.ledger (p.reportSuccess ticket).1.ledger := by
  unfold reportSuccess
  split
  · exact .rest _ _
  · next l h found =>
    obtain ⟨l, live, at_, rfl⟩ := exists_of_found found
    split
    · next probe => exact .succeeded ticket live at_ probe
    · exact .rest _ _

lemma release_shift (p : Pool) (now ticket : Nat) :
    Shift now p.options.delay (.release ticket) p.ledger (p.release ticket).1.ledger := by
  unfold release
  split
  · exact .rest _ _
  · next l live =>
    dsimp only
    rw [ledger_wakeOne]
    exact .released ticket live

/-- Every step does one of these things. -/
theorem Moment.step_shift (m : Moment) (a : Act) :
    Shift m.now m.pool.options.delay a m.pool.ledger (m.step a).pool.ledger := by
  cases a with
  | wait milliseconds => exact .rest _ _
  | wakeDue => exact .rest _ _
  | tryLease => exact tryLease_shift _ m.pool m.now m.drawn
  | enter => exact enter_shift _ m.pool m.now m.drawn
  | look k =>
    unfold step
    dsimp only
    split
    · next w _ =>
      exact settleIn_shift _ { m.pool with woken := m.pool.woken.eraseIdx k } m.now w.ticket
    · exact .rest _ _
  | cancel ticket =>
    change Shift _ _ _ _ (m.pool.cancel ticket).ledger
    rw [ledger_cancel]
    exact .rest _ _
  | reportFailure ticket => exact reportFailure_shift m.pool m.now ticket
  | reportSuccess ticket => exact reportSuccess_shift m.pool m.now ticket
  | release ticket => exact release_shift m.pool m.now ticket

/-- The request that was woken first is let look by the pool itself. -/
lemma Moment.step_look_zero (m : Moment) :
    (m.step (.look 0)).pool = ((m.pool.runWoken m.now).map (·.1)).getD m.pool := by
  unfold step runWoken
  cases m.pool.woken with
  | nil => rfl
  | cons w rest => rfl

end Pool
end Gateway
