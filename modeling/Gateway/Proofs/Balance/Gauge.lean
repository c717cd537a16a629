import Gateway.Proofs.Balance.Accounts
import Gateway.Server.Resources

/-! What operators are told about hosts that cannot be connected to. A measurement is kept for each
authority, and hosts of several pools may share one. -/
namespace Gateway

namespace Readings
variable {r : Readings} {series s : String} {value : Nat}

lemma lookup_replace_self (known : r.any (·.1 = series) = true) :
    (r.map fun e => if e.1 = series then (series, value) else e).lookup series = some value := by
  induction r with
  | nil => cases known
  | cons e rest ih =>
    obtain ⟨key, n⟩ := e
    by_cases first : key = series
    · simp [first]
    · have later : rest.any (·.1 = series) = true := by simpa [first] using known
      have other : (series == key) = false := beq_false_of_ne (Ne.symm first)
      simp [first, List.lookup_cons, other, ih later]

lemma lookup_replace_of_ne (ne : s ≠ series) :
    (r.map fun e => if e.1 = series then (series, value) else e).lookup s = r.lookup s := by
  induction r with
  | nil => rfl
  | cons e rest ih =>
    obtain ⟨key, n⟩ := e
    by_cases first : key = series
    · simp [first, List.lookup_cons, beq_false_of_ne ne, ih]
    · simp [first, List.lookup_cons, ih]

/-- A value that is put in place touches its own series only. -/
lemma lookup_apply_set (r : Readings) (series s : String) (n : Nat) :
    (r.apply series (.set n)).lookup s = if s = series then some n else r.lookup s := by
  unfold apply
  dsimp only
  by_cases known : r.any (·.1 = series) = true
  · rw [if_pos known]
    by_cases same : s = series
    · rw [if_pos same, same, lookup_replace_self known]
    · rw [if_neg same, lookup_replace_of_ne same]
  · have absent : r.lookup series = none :=
      List.lookup_eq_none_iff.mpr fun e he => bne_iff_ne.mpr fun same =>
        known (List.any_eq_true.mpr ⟨e, he, decide_eq_true same.symm⟩)
    rw [if_neg known, List.lookup_append]
    by_cases same : s = series
    · rw [if_pos same, same, absent]
      simp
    · rw [if_neg same, List.lookup_cons, beq_false_of_ne same]
      simp

end Readings

/-- What is told about the hosts of an authority. Nothing told is a zero. -/
def problemGauge (events : List Event) (authority : String) : Nat :=
  ((Readings.ofEvents events).lookup
    (seriesName "gateway_backend_problem" [("host", authority)])).getD 0

lemma seriesName_host_inj {metric a b : String} :
    seriesName metric [("host", a)] = seriesName metric [("host", b)] ↔ a = b := by
  simp [seriesName]

lemma problemGauge_append {news : List Event} {host : String} {on : Bool}
    (one : news.filterMap Event.metric? = [.backendProblem host on]) (events : List Event)
    (authority : String) :
    problemGauge (events ++ news) authority =
      if authority = host then if on then 1 else 0 else problemGauge events authority := by
  simp [problemGauge, Readings.ofEvents, one, Metric.changes, Readings.lookup_apply_set,
    seriesName_host_inj]
  split <;> simp

namespace Pool

/-- The host whose failure an act reports. -/
def failing? (p : Pool) : Act → Option Nat
  | .reportFailure ticket =>
    ((p.live? ticket).bind fun l => p.hosts[l.host]?.map (l.host, ·)).map (·.1)
  | _ => none

/-- What is told about an act. -/
def Moment.news (m : Moment) : Act → List Event
  | .reportFailure ticket => (m.pool.reportFailure m.now ticket).2.1
  | .reportSuccess ticket => (m.pool.reportSuccess ticket).2.1
  | _ => []

/-- What operators are told a host by, and whether it is healthy. -/
def standing (h : Host) : String × Bool := (h.authority, h.isHealthy)

/-- What an act does to the health of the hosts, and what is told about it. -/
inductive Tells (p : Pool) (now : Nat) (a : Act) : List Host → List Event → Prop where
  | silent {hosts : List Host} (none : p.failing? a = none)
      (same : hosts.map standing = p.hosts.map standing) : Tells p now a hosts []
  | failed {i : Nat} {h : Host} {news : List Event} (some_ : p.failing? a = some i)
      (at_ : p.hosts[i]? = some h)
      (one : news.filterMap Event.metric? = [.backendProblem h.authority true]) :
      Tells p now a (p.hosts.modify i (·.markProblem now)) news
  | returned {i : Nat} {h : Host} (none : p.failing? a = none) (at_ : p.hosts[i]? = some h)
      (ill : h.isHealthy = false) :
      Tells p now a (p.hosts.modify i Host.markHealthy)
        [.metric (.backendProblem h.authority false)]

variable {p : Pool} {now retry ticket : Nat} {a : Act} {b b' : Ledger}

lemma map_modify_at {α β : Type} {g : α → β} {f : α → α} {list : List α} {i : Nat} {x : α}
    (at_ : list[i]? = some x) (keeps : g (f x) = g x) : (list.modify i f).map g = list.map g := by
  obtain ⟨lt, rfl⟩ := List.getElem?_eq_some_iff.mp at_
  have kept := List.set_getElem_self (show i < (list.map g).length by simpa using lt)
  rw [List.getElem_map] at kept
  rw [modify_eq_set at_, List.map_set, keeps, kept]

/-- Only reports change the standing of hosts. -/
lemma Shift.standing_eq (h : Shift now retry a b b')
    (quiet : ∀ ticket, a ≠ .reportFailure ticket ∧ a ≠ .reportSuccess ticket) :
    b'.hosts.map standing = b.hosts.map standing := by
  cases h with
  | rest => rfl
  | leased => exact map_modify_of_keeps (f := Host.claim) (fun _ => rfl) ..
  | @probed _ i h _ ticket at_ due =>
    refine map_modify_at at_ ?_
    have problem := of_decide_eq_true (Bool.and_eq_true_iff.mp due).1
    simp [standing, Host.isHealthy, Host.beginProbe, Host.claim, problem]
  | failed ticket => exact absurd rfl (quiet ticket).1
  | succeeded ticket => exact absurd rfl (quiet ticket).2
  | released =>
    refine map_modify_of_keeps (fun host => ?_) ..
    split
    · unfold Host.abandonProbe
      split
      · next probing => simp [standing, Host.isHealthy, Host.free, probing]
      · rfl
    · rfl

lemma tells_reportFailure (p : Pool) (now ticket : Nat) :
    Tells p now (.reportFailure ticket) (p.reportFailure now ticket).1.hosts
      (p.reportFailure now ticket).2.1 := by
  cases found : (p.live? ticket).bind fun l => p.hosts[l.host]?.map (l.host, ·) with
  | none =>
    simp only [reportFailure, found]
    exact .silent (by simp [failing?, found]) rfl
  | some e =>
    obtain ⟨i, h⟩ := e
    obtain ⟨l, live, at_, rfl⟩ := exists_of_found found
    simp only [reportFailure, found]
    refine .failed (by simp [failing?, found]) at_ ?_
    split <;> rfl

lemma tells_reportSuccess (p : Pool) (now ticket : Nat) :
    Tells p now (.reportSuccess ticket) (p.reportSuccess ticket).1.hosts
      (p.reportSuccess ticket).2.1 := by
  cases found : (p.live? ticket).bind fun l => p.hosts[l.host]?.map (l, ·) with
  | none =>
    simp only [reportSuccess, found]
    exact .silent rfl rfl
  | some e =>
    obtain ⟨l, h⟩ := e
    obtain ⟨l, live, at_, rfl⟩ := exists_of_found found
    simp only [reportSuccess, found]
    by_cases probe : l.probe = true
    · rw [if_pos probe]
      cases healthy : h.isHealthy with
      | true =>
        refine .silent rfl (map_modify_at at_ ?_)
        rw [standing, standing, healthy]
        rfl
      | false => exact .returned rfl at_ healthy
    · rw [if_neg probe]
      exact .silent rfl rfl

/-- A failure is told of each time, a success just if its host comes back, anything else never. -/
theorem Moment.tells_step (m : Moment) (a : Act) :
    Tells m.pool m.now a (m.step a).pool.hosts (m.news a) := by
  have quiet (none : ∀ ticket, a ≠ .reportFailure ticket ∧ a ≠ .reportSuccess ticket) :=
    (m.step_shift a).standing_eq none
  cases a with
  | reportFailure ticket => exact tells_reportFailure m.pool m.now ticket
  | reportSuccess ticket => exact tells_reportSuccess m.pool m.now ticket
  | _ => exact .silent rfl (quiet fun _ => ⟨nofun, nofun⟩)

end Pool

/-- An act on one of the pools. Its time and its tickets are those of all. -/
def Resources.act (r : Resources) (k : Nat) (a : Pool.Act) : Resources :=
  match a with
  | .reportFailure ticket => r.report k (·.reportFailure r.now ticket)
  | .reportSuccess ticket => r.report k (·.reportSuccess ticket)
  | a =>
    match r.pools[k]? with
    | none => r
    | some p =>
      let m := Pool.Moment.step ⟨p, r.now, r.ticketsDrawn⟩ a
      { r with pools := r.pools.set k m.pool, now := m.now, ticketsDrawn := m.drawn }

namespace Resources
variable {r : Resources} {k : Nat} {a : Pool.Act}

def acts (r : Resources) (steps : List (Nat × Pool.Act)) : Resources :=
  steps.foldl (fun r s => r.act s.1 s.2) r

lemma act_of_none (absent : r.pools[k]? = none) : r.act k a = r := by
  cases a <;> simp [act, report, absent]

lemma act_of_some {p : Pool} (at_ : r.pools[k]? = some p) :
    let m : Pool.Moment := ⟨p, r.now, r.ticketsDrawn⟩
    (r.act k a).pools = r.pools.set k (m.step a).pool ∧
      (r.act k a).events = r.events ++ m.news a := by
  cases a <;> simp [act, report, at_, note, Pool.Moment.news, Pool.Moment.step]

/-- Authority and health of the host at a place: its pool and its position there. -/
def standing? (r : Resources) (place : Nat × Nat) : Option (String × Bool) :=
  (r.pools[place.1]?.bind (·.hosts[place.2]?)).map Pool.standing

/-- The host at a place is one of an authority, and is not healthy. -/
def Out (r : Resources) (authority : String) (place : Nat × Nat) : Prop :=
  r.standing? place = some (authority, false)

/-- The act reports a failure of the host at a place. -/
def Fails (r : Resources) (k : Nat) (a : Pool.Act) (place : Nat × Nat) : Prop :=
  place.1 = k ∧ r.pools[k]?.bind (·.failing? a) = some place.2

/-- What an act on a pool does to standings and measurements. -/
inductive Turns (r r' : Resources) (fails : Nat × Nat → Prop) : Prop where
  | silent (none : ∀ place, ¬fails place) (same : ∀ place, r'.standing? place = r.standing? place)
      (gauge : ∀ authority, problemGauge r'.events authority = problemGauge r.events authority)
  | failed (place : Nat × Nat) (host : String) (was : Bool)
      (one : ∀ other, fails other ↔ other = place)
      (before : r.standing? place = some (host, was))
      (after : r'.standing? place = some (host, false))
      (others : ∀ other, other ≠ place → r'.standing? other = r.standing? other)
      (gauge : ∀ authority, problemGauge r'.events authority =
        if authority = host then 1 else problemGauge r.events authority)
  | returned (place : Nat × Nat) (host : String) (none : ∀ place, ¬fails place)
      (before : r.standing? place = some (host, false))
      (after : r'.standing? place = some (host, true))
      (others : ∀ other, other ≠ place → r'.standing? other = r.standing? other)
      (gauge : ∀ authority, problemGauge r'.events authority =
        if authority = host then 0 else problemGauge r.events authority)

lemma standing?_of_ne {r' : Resources} {p : Pool} (pools : r'.pools = r.pools.set k p)
    {place : Nat × Nat} (ne : place.1 ≠ k) : r'.standing? place = r.standing? place := by
  rw [standing?, standing?, pools, List.getElem?_set_ne ne.symm]

lemma standing?_of_at {p : Pool} (at_ : r.pools[k]? = some p) (i : Nat) :
    r.standing? (k, i) = p.hosts[i]?.map Pool.standing := by
  simp [standing?, at_]

lemma fails_iff_of_at {p : Pool} (at_ : r.pools[k]? = some p) {place : Nat × Nat} :
    r.Fails k a place ↔ place.1 = k ∧ p.failing? a = some place.2 := by
  simp [Fails, at_]

/-- The host at one position changes. -/
lemma others_of_modify {r' : Resources} {p p' : Pool} (at_ : r.pools[k]? = some p)
    (pools : r'.pools = r.pools.set k p') {i : Nat} {f : Host → Host}
    (modified : p'.hosts = p.hosts.modify i f) (other : Nat × Nat) (ne : other ≠ (k, i)) :
    r'.standing? other = r.standing? other := by
  obtain ⟨j, l⟩ := other
  by_cases same : j = k
  · subst same
    have ne' : i ≠ l := fun e => ne (by rw [e])
    have at' : r'.pools[j]? = some p' := by
      rw [pools, List.getElem?_set_self (List.getElem?_eq_some_iff.mp at_).1]
    rw [standing?_of_at at', standing?_of_at at_, modified, List.getElem?_modify_ne f p.hosts ne']
  · exact standing?_of_ne pools same

/-- One host at most changes, and its authority's gauge alone is set. -/
theorem act_turns (r : Resources) (k : Nat) (a : Pool.Act) :
    Turns r (r.act k a) (r.Fails k a) := by
  cases at_ : r.pools[k]? with
  | none =>
    rw [act_of_none at_]
    exact .silent (fun place fails => by simp [Fails, at_] at fails) (fun _ => rfl) fun _ => rfl
  | some p =>
    obtain ⟨pools, events⟩ := act_of_some (a := a) at_
    have tells := Pool.Moment.tells_step ⟨p, r.now, r.ticketsDrawn⟩ a
    have at' : (r.act k a).pools[k]? =
        some (Pool.Moment.step ⟨p, r.now, r.ticketsDrawn⟩ a).pool := by
      rw [pools, List.getElem?_set_self (List.getElem?_eq_some_iff.mp at_).1]
    generalize (Pool.Moment.step ⟨p, r.now, r.ticketsDrawn⟩ a).pool = p' at *
    generalize Pool.Moment.news ⟨p, r.now, r.ticketsDrawn⟩ a = news at *
    generalize all : p'.hosts = hosts at tells
    cases tells with
    | silent none same =>
      refine .silent (fun place fails => ?_) (fun place => ?_) fun authority => ?_
      · obtain ⟨-, some_⟩ := (fails_iff_of_at at_).mp fails
        rw [none] at some_
        cases some_
      · obtain ⟨j, i⟩ := place
        by_cases here : j = k
        · subst here
          have standing := congrArg (·[i]?) same
          simp only [List.getElem?_map] at standing
          rw [standing?_of_at at_, standing?_of_at at', all, standing]
        · exact standing?_of_ne pools here
      · rw [events, List.append_nil]
    | @failed i h _ some_ host one =>
      refine .failed (k, i) h.authority h.isHealthy ?_ ?_ ?_
        (others_of_modify at_ pools all) fun authority => ?_
      · rintro ⟨j, l⟩
        rw [fails_iff_of_at at_, some_, Option.some_inj, Prod.mk.injEq, eq_comm (a := i)]
      · rw [standing?_of_at at_, host]
        rfl
      · rw [standing?_of_at at', all, List.getElem?_modify_eq, host]
        rfl
      · rw [events, problemGauge_append one]
        rfl
    | @returned i h none host ill =>
      refine .returned (k, i) h.authority (fun place fails => ?_) ?_ ?_
        (others_of_modify at_ pools all) fun authority => ?_
      · obtain ⟨-, some_⟩ := (fails_iff_of_at at_).mp fails
        rw [none] at some_
        cases some_
      · rw [standing?_of_at at_, host, Option.map_some, Pool.standing, ill]
      · rw [standing?_of_at at', all, List.getElem?_modify_eq, host]
        rfl
      · rw [events, problemGauge_append rfl]
        rfl

/-- The hosts of an authority that are passed over after an act. When one comes back, all that are
still out are, each until its next failure. -/
def overlookedAfter (r : Resources) (k : Nat) (a : Pool.Act) (authority : String)
    (overlooked : Nat × Nat → Prop) (place : Nat × Nat) : Prop :=
  (r.act k a).Out authority place ∧
    ((∃ back, r.Out authority back ∧ ¬(r.act k a).Out authority back) ∨
      (overlooked place ∧ ¬r.Fails k a place))

/-- The hosts of an authority that are passed over after a run. -/
def overlookedIn (authority : String) :
    List (Nat × Pool.Act) → Resources → (Nat × Nat → Prop) → Nat × Nat → Prop
  | [], _, overlooked => overlooked
  | (k, a) :: rest, r, overlooked =>
    overlookedIn authority rest (r.act k a) (r.overlookedAfter k a authority overlooked)

/-- The gauge of an authority tells of its hosts that are out, but for those passed over. -/
structure Shows (r : Resources) (authority : String) (overlooked : Nat × Nat → Prop) : Prop where
  le_one : problemGauge r.events authority ≤ 1
  on : problemGauge r.events authority = 1 ↔ ∃ place, r.Out authority place ∧ ¬overlooked place

variable {authority : String} {overlooked : Nat × Nat → Prop}

lemma not_out_of_standing {host : String} {place : Nat × Nat} {healthy : Bool}
    (at_ : r.standing? place = some (host, healthy)) (ne : authority ≠ host) :
    ¬r.Out authority place := by
  intro out
  obtain ⟨same, -⟩ := Prod.mk.inj (Option.some.inj (out.symm.trans at_))
  exact ne same

/-- What happens to a host does not touch other authorities. -/
lemma out_iff_of_ne {r' : Resources} {host : String} {place : Nat × Nat} {was is : Bool}
    (before : r.standing? place = some (host, was)) (after : r'.standing? place = some (host, is))
    (others : ∀ other, other ≠ place → r'.standing? other = r.standing? other)
    (ne : authority ≠ host) (other : Nat × Nat) :
    r'.Out authority other ↔ r.Out authority other := by
  by_cases here : other = place
  · subst here
    exact iff_of_false (not_out_of_standing after ne) (not_out_of_standing before ne)
  · rw [Out, Out, others other here]

/-- An act that does not concern the authority. -/
lemma Shows.apart (h : r.Shows authority overlooked)
    (out : ∀ place, (r.act k a).Out authority place ↔ r.Out authority place)
    (fails : ∀ place, r.Out authority place → ¬r.Fails k a place)
    (gauge : problemGauge (r.act k a).events authority = problemGauge r.events authority) :
    (r.act k a).Shows authority (r.overlookedAfter k a authority overlooked) := by
  refine ⟨by rw [gauge]; exact h.le_one, ?_⟩
  rw [gauge, h.on]
  have still (place : Nat × Nat) (is : r.Out authority place) :
      r.overlookedAfter k a authority overlooked place ↔ overlooked place := by
    simp [overlookedAfter, out, is, fails place is]
  constructor
  · rintro ⟨place, is, seen⟩
    exact ⟨place, (out place).mpr is, fun passed => seen ((still place is).mp passed)⟩
  · rintro ⟨place, is, seen⟩
    have was := (out place).mp is
    exact ⟨place, was, fun passed => seen ((still place was).mpr passed)⟩

/-- Every act keeps the gauge right but for those passed over. -/
theorem Shows.act (h : r.Shows authority overlooked) (k : Nat) (a : Pool.Act) :
    (r.act k a).Shows authority (r.overlookedAfter k a authority overlooked) := by
  cases r.act_turns k a with
  | silent none same gauge =>
    refine h.apart (fun place => ?_) (fun place _ => none place) (gauge authority)
    rw [Out, Out, same]
  | failed place host was one before after others gauge =>
    by_cases concerned : authority = host
    · subst concerned
      have on : problemGauge (r.act k a).events authority = 1 := by rw [gauge, if_pos rfl]
      refine ⟨Nat.le_of_eq on, iff_of_true on ⟨place, after, ?_⟩⟩
      rintro ⟨-, ⟨back, out, came⟩ | ⟨-, passed⟩⟩
      · by_cases here : back = place
        · exact came (here ▸ after)
        · exact came ((others back here).trans out)
      · exact passed ((one place).mpr rfl)
    · refine h.apart (out_iff_of_ne before after others concerned) (fun other out fails => ?_) ?_
      · obtain rfl := (one other).mp fails
        exact not_out_of_standing before concerned out
      · rw [gauge, if_neg concerned]
  | returned place host none before after others gauge =>
    by_cases concerned : authority = host
    · subst concerned
      have off : problemGauge (r.act k a).events authority = 0 := by rw [gauge, if_pos rfl]
      have gone : ¬(r.act k a).Out authority place := by
        intro out
        cases out.symm.trans after
      refine ⟨by omega, iff_of_false (by omega) ?_⟩
      rintro ⟨other, out, seen⟩
      exact seen ⟨out, .inl ⟨place, before, gone⟩⟩
    · refine h.apart (out_iff_of_ne before after others concerned) (fun other _ => none other) ?_
      rw [gauge, if_neg concerned]

theorem Shows.acts (h : r.Shows authority overlooked) (steps : List (Nat × Pool.Act)) :
    (r.acts steps).Shows authority (overlookedIn authority steps r overlooked) := by
  induction steps generalizing r overlooked with
  | nil => exact h
  | cons s rest ih => exact ih (h.act s.1 s.2)

/-- The authorities of hosts are for good. -/
lemma authority_act (r : Resources) (k : Nat) (a : Pool.Act) (place : Nat × Nat) :
    ((r.act k a).standing? place).map Prod.fst = (r.standing? place).map Prod.fst := by
  cases r.act_turns k a with
  | silent none same gauge => rw [same]
  | failed one_ host was one before after others gauge =>
    by_cases here : place = one_
    · rw [here, before, after]
      rfl
    · rw [others place here]
  | returned one_ host none before after others gauge =>
    by_cases here : place = one_
    · rw [here, before, after]
      rfl
    · rw [others place here]

/-- No two hosts have this authority. -/
def Alone (r : Resources) (authority : String) : Prop :=
  ∀ place other, (r.standing? place).map Prod.fst = some authority →
    (r.standing? other).map Prod.fst = some authority → place = other

lemma Out.fst {place : Nat × Nat} (h : r.Out authority place) :
    (r.standing? place).map Prod.fst = some authority := by
  rw [h]
  rfl

/-- A host whose authority no other one has is never passed over. -/
theorem overlookedIn_of_alone (alone : r.Alone authority) (none : ∀ place, ¬overlooked place)
    (steps : List (Nat × Pool.Act)) (place : Nat × Nat) :
    ¬overlookedIn authority steps r overlooked place := by
  induction steps generalizing r overlooked with
  | nil => exact none place
  | cons s rest ih =>
    refine ih (r := r.act s.1 s.2) ?_ fun place => ?_
    · intro place other is is'
      rw [authority_act] at is is'
      exact alone place other is is'
    · rintro ⟨out, ⟨back, was, came⟩ | ⟨passed, -⟩⟩
      · have is := out.fst
        rw [authority_act] at is
        exact came (alone place back is was.fst ▸ out)
      · exact none place passed

/-- Whatever happens to pools of healthy hosts, the gauge of an authority is one just if a host with
that authority is not healthy and was not passed over. When a host comes back, those with its
authority that are still out are passed over until they fail again. Where no two hosts share an
authority, its gauge is one just if its host is not healthy. -/
theorem problemGauge_eq_one_iff (pools : List Pool)
    (healthy : ∀ p ∈ pools, ∀ h ∈ p.hosts, h.state = .healthy) (steps : List (Nat × Pool.Act))
    (authority : String) :
    let start : Resources := { pools }
    let r := start.acts steps
    problemGauge r.events authority ≤ 1 ∧
      (problemGauge r.events authority = 1 ↔ ∃ place, r.Out authority place ∧
        ¬overlookedIn authority steps start (fun _ => False) place) ∧
      (start.Alone authority →
        (problemGauge r.events authority = 1 ↔ ∃ place, r.Out authority place)) := by
  intro start r
  have none (place : Nat × Nat) : ¬start.Out authority place := by
    intro out
    obtain ⟨h, found, standing⟩ := Option.map_eq_some_iff.mp out
    obtain ⟨p, at_, host⟩ := Option.bind_eq_some_iff.mp found
    have fine := healthy p (List.mem_of_getElem? at_) h (List.mem_of_getElem? host)
    simp [Pool.standing, Host.isHealthy, fine] at standing
  have before : start.Shows authority fun _ => False :=
    ⟨Nat.zero_le _, iff_of_false nofun fun ⟨place, out, _⟩ => none place out⟩
  have tells := before.acts steps
  refine ⟨tells.le_one, tells.on, fun alone => tells.on.trans ?_⟩
  have seen : ∀ place, ¬overlookedIn authority steps start (fun _ => False) place :=
    overlookedIn_of_alone alone (fun _ => id) steps
  simp [seen, r]

/-- Two hosts share an authority and fail. One comes back, and the gauge is zero while the other is
out. -/
theorem problemGauge_of_shared_authority :
    let host (basePath : String) : Host :=
      { uri := {}, authority := "h0:80", basePath, budget := 5 }
    let pools : List Pool := [{ name := "api", hosts := [host "", host "/b"] }]
    let steps : List (Nat × Pool.Act) := [(0, .tryLease), (0, .tryLease), (0, .reportFailure 0),
      (0, .reportFailure 1), (0, .wait 10000), (0, .tryLease), (0, .reportSuccess 2)]
    let start : Resources := { pools }
    let r := start.acts steps
    (∀ p ∈ pools, ∀ h ∈ p.hosts, h.state = .healthy) ∧ problemGauge r.events "h0:80" = 0 ∧
      r.Out "h0:80" (0, 1) ∧ overlookedIn "h0:80" steps start (fun _ => False) (0, 1) := by
  intro host pools steps start r
  have healthy : ∀ p ∈ pools, ∀ h ∈ p.hosts, h.state = .healthy := by decide
  have off : problemGauge r.events "h0:80" = 0 := by decide +kernel
  have out : r.standing? (0, 1) = some ("h0:80", false) := by decide +kernel
  refine ⟨healthy, off, out, ?_⟩
  by_contra seen
  have on := (problemGauge_eq_one_iff pools healthy steps "h0:80").2.1.mpr ⟨_, out, seen⟩
  cases off.symm.trans on

end Resources
end Gateway
