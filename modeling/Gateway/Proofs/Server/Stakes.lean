import Mathlib.Algebra.BigOperators.Group.List.Basic
import Gateway.Proofs.Balance.Turns
import Gateway.Server.Resources

/-! Stakes in the pools of a gateway. Each lease of a pool is held by one of those who have a stake, each
place in its queue is the place of one of them, and nobody else has any. -/
namespace Gateway

section Sums
variable {α : Type} {list : List α} {k : Nat} {a : α}

lemma sum_set (g : α → Nat) (b : α) (at_ : list[k]? = some a) :
    ((list.set k b).map g).sum + g a = (list.map g).sum + g b := by
  rw [List.set_eq_modify]
  exact sum_modify g at_

/-- Where others have nothing the sum is one's own. -/
lemma sum_of_single (g : α → Nat) (at_ : list[k]? = some a)
    (others : ∀ j b, list[j]? = some b → j ≠ k → g b = 0) : (list.map g).sum = g a := by
  induction list generalizing k with
  | nil => simp at at_
  | cons b rest ih =>
    rw [List.map_cons, List.sum_cons]
    cases k with
    | zero =>
      obtain rfl := Option.some.inj at_
      have none : (rest.map g).sum = 0 := by
        refine List.sum_eq_zero fun n hn => ?_
        obtain ⟨c, hc, rfl⟩ := List.mem_map.mp hn
        obtain ⟨j, found⟩ := List.getElem?_of_mem hc
        exact others (j + 1) c found (Nat.succ_ne_zero j)
      rw [none, Nat.add_zero]
    | succ k =>
      rw [others 0 b rfl (Nat.succ_ne_zero k).symm, Nat.zero_add]
      exact ih at_ fun j c found other => others (j + 1) c found fun same => other (Nat.succ.inj same)

lemma set_of_getElem? (at_ : list[k]? = some a) : list.set k a = list := by
  obtain ⟨lt, rfl⟩ := List.getElem?_eq_some_iff.mp at_
  exact List.set_getElem_self lt

lemma eq_or_of_set {b c : α} {j : Nat} (h : (list.set k b)[j]? = some c) :
    (j = k ∧ c = b) ∨ (j ≠ k ∧ list[j]? = some c) := by
  by_cases same : j = k
  · subst same
    have lt : j < list.length := by simpa using (List.getElem?_eq_some_iff.mp h).1
    rw [List.getElem?_set_self lt] at h
    exact .inl ⟨rfl, (Option.some.inj h).symm⟩
  · rw [List.getElem?_set_ne (Ne.symm same)] at h
    exact .inr ⟨same, h⟩

end Sums

/-- What someone has of the pools: leases, and a place in the queue of one pool under a ticket. -/
structure Stake where
  held : List Guard := []
  place : Option (Nat × Nat) := none

namespace Stake

def nothing : Stake := {}

variable {s : Stake} {i j t pool ticket : Nat} {outcome : Admittance}

def leases (s : Stake) (pool ticket : Nat) : Nat := s.held.count (.lease pool ticket)

def places (s : Stake) (pool ticket : Nat) : Nat := if s.place = some (pool, ticket) then 1 else 0

/-- Places in the queue of a pool under any ticket. -/
def queued (s : Stake) (pool : Nat) : Nat := if s.place.any (·.1 = pool) then 1 else 0

lemma places_none (h : s.place = none) : s.places i t = 0 ∧ s.queued i = 0 := by
  simp [places, queued, h]

lemma places_own (h : s.place = some (pool, ticket)) : s.places pool ticket = 1 := if_pos h

lemma places_some (h : s.place = some (pool, ticket)) :
    (s.places i t = if i = pool ∧ t = ticket then 1 else 0) ∧
      s.queued i = if i = pool then 1 else 0 := by
  simp [places, queued, h, eq_comm (a := pool), eq_comm (a := ticket)]

/-- From `s` to `s'` a ticket of a pool has come to stand for these leases and places. -/
structure Turn (s s' : Stake) (pool ticket leased placed : Nat) : Prop where
  leases : ∀ i t, s'.leases i t = if i = pool ∧ t = ticket then leased else s.leases i t
  places : ∀ i t, s'.places i t = if i = pool ∧ t = ticket then placed else s.places i t
  queued : ∀ i, s'.queued i + (if i = pool then s.places pool ticket else 0) =
    s.queued i + if i = pool then placed else 0

/-- The stake after a pool has answered. -/
def answered (s : Stake) (pool ticket : Nat) : Admittance → Stake
  | .granted _ => { held := .lease pool ticket :: s.held }
  | .refused _ => { held := s.held }
  | .waits => { held := s.held, place := some (pool, ticket) }

/-- Who asks holds nothing under the ticket and waits nowhere else. -/
lemma turn_answered (unleased : s.leases pool ticket = 0)
    (nowhere : s.place = none ∨ s.place = some (pool, ticket)) :
    Turn s (s.answered pool ticket outcome) pool ticket outcome.leases outcome.places := by
  refine ⟨fun i t => ?_, fun i t => ?_, fun i => ?_⟩
  · have kept : (if i = pool ∧ t = ticket then 0 else s.leases i t) = s.leases i t := by
      split
      · next same => rw [same.1, same.2, unleased]
      · rfl
    cases outcome with
    | granted l =>
      simp only [leases, answered, Admittance.leases, List.count_cons, beq_iff_eq,
        Guard.lease.injEq, eq_comm (a := pool), eq_comm (a := ticket)] at kept ⊢
      split
      · next same => rw [if_pos same] at kept; omega
      · rfl
    | refused f => exact kept.symm
    | waits => exact kept.symm
  · have left : s.places i t = if i = pool ∧ t = ticket then s.places pool ticket else 0 := by
      obtain none_ | some_ := nowhere
      · rw [(places_none none_).1, (places_none none_).1, ite_self]
      · rw [(places_some some_).1, places_own some_]
    have now : (s.answered pool ticket outcome).places i t =
        if i = pool ∧ t = ticket then outcome.places else 0 := by
      cases outcome with
      | granted l => rw [(places_none rfl).1]; exact (ite_self _).symm
      | refused f => rw [(places_none rfl).1]; exact (ite_self _).symm
      | waits => exact (places_some rfl).1
    rw [now, left]
    split <;> rfl
  · have left : s.queued i = if i = pool then s.places pool ticket else 0 := by
      obtain none_ | some_ := nowhere
      · rw [(places_none none_).1, (places_none (t := 0) none_).2, ite_self]
      · rw [(places_some (t := 0) some_).2, places_own some_]
    have now : (s.answered pool ticket outcome).queued i = if i = pool then outcome.places else 0 := by
      cases outcome with
      | granted l => rw [(places_none (t := 0) rfl).2]; exact (ite_self _).symm
      | refused f => rw [(places_none (t := 0) rfl).2]; exact (ite_self _).symm
      | waits => exact (places_some (t := 0) rfl).2
    rw [now, left, Nat.add_comm]

/-- The stake without the lease of a ticket. -/
def without (s : Stake) (pool ticket : Nat) : Stake :=
  { s with held := s.held.filter (· ≠ .lease pool ticket) }

lemma leases_without :
    (s.without pool ticket).leases i t = if i = pool ∧ t = ticket then 0 else s.leases i t := by
  unfold leases without
  split
  · next same =>
    obtain ⟨rfl, rfl⟩ := same
    exact List.count_eq_zero.mpr fun member => by simp at member
  · next other =>
    refine List.count_filter (decide_eq_true fun same => other ?_)
    exact Guard.lease.inj same

lemma turn_without : Turn s (s.without pool ticket) pool ticket 0 (s.places pool ticket) where
  leases _ _ := leases_without
  places i t := by
    split
    · next same => rw [same.1, same.2]; rfl
    · rfl
  queued _ := rfl

/-- The stake without all that a ticket stands for. -/
def drop (s : Stake) (pool ticket : Nat) : Stake :=
  { s.without pool ticket with place := if s.place = some (pool, ticket) then none else s.place }

lemma turn_drop : Turn s (s.drop pool ticket) pool ticket 0 0 where
  leases _ _ := leases_without
  places i t := by
    by_cases own : s.place = some (pool, ticket)
    · rw [(places_none (if_pos own)).1, (places_some own).1]
      split <;> rfl
    · have kept : (s.drop pool ticket).place = s.place := if_neg own
      change (if (s.drop pool ticket).place = _ then 1 else 0) = if _ then 0 else s.places i t
      rw [kept]
      split
      · next found =>
        have other : ¬(i = pool ∧ t = ticket) := fun same => own (same.1 ▸ same.2 ▸ found)
        rw [if_neg other, places, if_pos found]
      · next absent => rw [places, if_neg absent, ite_self]
  queued i := by
    by_cases own : s.place = some (pool, ticket)
    · rw [(places_none (t := 0) (if_pos own)).2, (places_some (t := 0) own).2, places_own own,
        ite_self]
      omega
    · have kept : (s.drop pool ticket).place = s.place := if_neg own
      rw [queued, kept, places, if_neg own]
      rfl

lemma queued_eq_zero (h : ∀ i t, s.places i t = 0) : s.queued i = 0 := by
  cases at_ : s.place with
  | none => exact (places_none (t := 0) at_).2
  | some place => exact absurd (h place.1 place.2) (by rw [places_own at_]; exact Nat.one_ne_zero)

def dropAll (s : Stake) (claims : List Claim) : Stake :=
  claims.foldl (fun s c => s.drop c.pool c.ticket) s

/-- Without anything that is claimed nothing is left. -/
lemma dropAll_eq_zero {claims : List Claim}
    (all : ∀ i t, 0 < s.leases i t + s.places i t → ∃ c ∈ claims, c.pool = i ∧ c.ticket = t) :
    ∀ i t, (s.dropAll claims).leases i t = 0 ∧ (s.dropAll claims).places i t = 0 := by
  induction claims generalizing s with
  | nil =>
    intro i t
    by_contra some_
    obtain ⟨c, hc, -⟩ := all i t (by unfold dropAll at some_; simp only [List.foldl_nil] at some_; omega)
    cases hc
  | cons c rest ih =>
    refine ih (s := s.drop c.pool c.ticket) fun i t pos => ?_
    rw [turn_drop.leases, turn_drop.places] at pos
    by_cases same : i = c.pool ∧ t = c.ticket
    · rw [if_pos same, if_pos same] at pos
      cases pos
    · rw [if_neg same, if_neg same] at pos
      obtain ⟨d, hd, rfl, rfl⟩ := all i t pos
      obtain rfl | hd := List.mem_cons.mp hd
      · exact absurd ⟨rfl, rfl⟩ same
      · exact ⟨d, hd, rfl, rfl⟩

end Stake

/-- How a pool was made: its options and what its hosts admit. -/
def Pool.design (p : Pool) : PoolOptions × List Nat := (p.options, p.hosts.map Host.budget)

/-- The pools are as they were made, their tickets and accounts are in order, and what they have given
out and whom they have queued is what is at stake. -/
structure Counted (designs : List (PoolOptions × List Nat)) (pools : List Pool) (drawn : Nat)
    (stakes : List Stake) : Prop where
  design : pools.map Pool.design = designs
  sound : ∀ (i : Nat) (p : Pool), pools[i]? = some p → p.Sound drawn
  leases : ∀ (i : Nat) (p : Pool), pools[i]? = some p → ∀ t, p.leasesOf t = (stakes.map (·.leases i t)).sum
  places : ∀ (i : Nat) (p : Pool), pools[i]? = some p → ∀ t, p.placesOf t = (stakes.map (·.places i t)).sum
  queued : ∀ (i : Nat) (p : Pool), pools[i]? = some p → p.queued = (stakes.map (·.queued i)).sum

/-- Whatever a ticket stands for in the pool is this stake. -/
def Stake.Alone (s : Stake) (p : Pool) (pool ticket : Nat) : Prop :=
  p.leasesOf ticket = s.leases pool ticket ∧ p.placesOf ticket = s.places pool ticket

namespace Counted
variable {designs : List (PoolOptions × List Nat)} {pools : List Pool} {drawn more : Nat}
  {stakes : List Stake} {i k ticket leased placed : Nat} {s s' : Stake} {f : Pool → Pool}

lemma design_modify (h : Counted designs pools drawn stakes)
    (same : ∀ p, pools[i]? = some p → (f p).design = p.design) :
    (pools.modify i f).map Pool.design = designs := by
  rw [← h.design]
  refine List.ext_getElem? fun j => ?_
  rw [List.getElem?_map, List.getElem?_map, List.getElem?_modify]
  cases at_ : pools[j]? with
  | none => rfl
  | some p =>
    by_cases here : i = j
    · subst here
      simpa using same p at_
    · simp [here]

/-- A pool and someone with a stake in it agree on a ticket that is nobody else's. -/
lemma turn (h : Counted designs pools drawn stakes) (own : stakes[k]? = some s) (le : drawn ≤ more)
    (change : s.Turn s' i ticket leased placed)
    (alone : ∀ p, pools[i]? = some p → s.Alone p i ticket)
    (sound : ∀ p, pools[i]? = some p → (f p).Sound more)
    (turn : ∀ p, pools[i]? = some p → Pool.Turn p (f p) ticket leased placed) :
    Counted designs (pools.modify i f) more (stakes.set k s') where
  design := h.design_modify fun p at_ => Prod.ext (turn p at_).options (turn p at_).budgets
  sound j q found := by
    obtain ⟨p, at_, rfl⟩ := exists_of_modify found
    split
    · next same => subst same; exact sound p at_
    · exact (h.sound j p at_).mono le
  leases j q found t := by
    obtain ⟨p, at_, rfl⟩ := exists_of_modify found
    have sum := sum_set (·.leases j t) s' own
    have before := h.leases j p at_ t
    have after := change.leases j t
    by_cases same : j = i
    · subst same
      have own := (alone p at_).1
      rw [if_pos rfl, (turn p at_).leases]
      by_cases named : t = ticket
      · subst named
        simp only [and_self, if_true] at after ⊢
        omega
      · simp only [named, and_false, if_false] at after ⊢
        omega
    · rw [if_neg (Ne.symm same)]
      simp only [same, false_and, if_false] at after
      omega
  places j q found t := by
    obtain ⟨p, at_, rfl⟩ := exists_of_modify found
    have sum := sum_set (·.places j t) s' own
    have before := h.places j p at_ t
    have after := change.places j t
    by_cases same : j = i
    · subst same
      have own := (alone p at_).2
      rw [if_pos rfl, (turn p at_).places]
      by_cases named : t = ticket
      · subst named
        simp only [and_self, if_true] at after ⊢
        omega
      · simp only [named, and_false, if_false] at after ⊢
        omega
    · rw [if_neg (Ne.symm same)]
      simp only [same, false_and, if_false] at after
      omega
  queued j q found := by
    obtain ⟨p, at_, rfl⟩ := exists_of_modify found
    have sum := sum_set (·.queued j) s' own
    have before := h.queued j p at_
    have after := change.queued j
    by_cases same : j = i
    · subst same
      have own := (alone p at_).2
      have length := (turn p at_).queued
      rw [if_pos rfl]
      simp only [if_true] at after
      omega
    · rw [if_neg (Ne.symm same)]
      simp only [same, if_false] at after
      omega

/-- A pool changes nothing that is at stake. -/
lemma still (h : Counted designs pools drawn stakes)
    (sound : ∀ p, pools[i]? = some p → (f p).Sound drawn)
    (still : ∀ p, pools[i]? = some p → Pool.Still p (f p)) :
    Counted designs (pools.modify i f) drawn stakes where
  design := h.design_modify fun p at_ => Prod.ext (still p at_).options (still p at_).budgets
  sound j q found := by
    obtain ⟨p, at_, rfl⟩ := exists_of_modify found
    split
    · next same => subst same; exact sound p at_
    · exact h.sound j p at_
  leases j q found t := by
    obtain ⟨p, at_, rfl⟩ := exists_of_modify found
    rw [← h.leases j p at_ t]
    split
    · next same => subst same; exact (still p at_).leases t
    · rfl
  places j q found t := by
    obtain ⟨p, at_, rfl⟩ := exists_of_modify found
    rw [← h.places j p at_ t]
    split
    · next same => subst same; exact (still p at_).places t
    · rfl
  queued j q found := by
    obtain ⟨p, at_, rfl⟩ := exists_of_modify found
    rw [← h.queued j p at_]
    split
    · next same => subst same; exact (still p at_).queued
    · rfl

/-- A stake counts for what it has. -/
lemma replace (h : Counted designs pools drawn stakes) (own : stakes[k]? = some s)
    (leases : ∀ i t, s'.leases i t = s.leases i t) (places : ∀ i t, s'.places i t = s.places i t)
    (queued : ∀ i, s'.queued i = s.queued i) : Counted designs pools drawn (stakes.set k s') := by
  have sum (g : Stake → Nat) (same : g s' = g s) : ((stakes.set k s').map g).sum = (stakes.map g).sum := by
    have sum := sum_set g s' own
    omega
  exact { h with
    leases := fun i p at_ t => by rw [h.leases i p at_, sum _ (leases i t)]
    places := fun i p at_ t => by rw [h.places i p at_, sum _ (places i t)]
    queued := fun i p at_ => by rw [h.queued i p at_, sum _ (queued i)] }

/-- Someone comes who has nothing yet. -/
lemma push (h : Counted designs pools drawn stakes) : Counted designs pools drawn (stakes ++ [.nothing]) where
  design := h.design
  sound := h.sound
  leases i p at_ t := by
    rw [h.leases i p at_, List.map_append, List.sum_append]
    rfl
  places i p at_ t := by
    rw [h.places i p at_, List.map_append, List.sum_append]
    rfl
  queued i p at_ := by
    rw [h.queued i p at_, List.map_append, List.sum_append]
    rfl

/-- A ticket that has not been drawn is nobody's. -/
lemma alone_of_new (h : Counted designs pools drawn stakes) (own : stakes[k]? = some s)
    {p : Pool} (at_ : pools[i]? = some p) (new : drawn ≤ ticket) : s.Alone p i ticket := by
  obtain ⟨unleased, unplaced⟩ := (h.sound i p at_).orderly.unused new
  have leases := sum_set (·.leases i ticket) .nothing own
  have places := sum_set (·.places i ticket) .nothing own
  rw [← h.leases i p at_] at leases
  rw [← h.places i p at_] at places
  have none_ : Stake.nothing.leases i ticket = 0 := rfl
  have nowhere : Stake.nothing.places i ticket = 0 := rfl
  exact ⟨by omega, by omega⟩

/-- Who has something under a ticket has all of it. -/
lemma alone_of_pos (h : Counted designs pools drawn stakes) (own : stakes[k]? = some s)
    {p : Pool} (at_ : pools[i]? = some p) (pos : 0 < s.leases i ticket + s.places i ticket) :
    s.Alone p i ticket := by
  have once := (h.sound i p at_).orderly.once ticket
  have leases := sum_set (·.leases i ticket) .nothing own
  have places := sum_set (·.places i ticket) .nothing own
  rw [← h.leases i p at_] at leases
  rw [← h.places i p at_] at places
  have none_ : Stake.nothing.leases i ticket = 0 := rfl
  have nowhere : Stake.nothing.places i ticket = 0 := rfl
  rw [Pool.uses_eq] at once
  exact ⟨by omega, by omega⟩

end Counted

/-- Whoever has something under a ticket has claimed it, and everyone claims tickets of their own. -/
structure Claimed (claims : List Claim) (drawn : Nat) (stakes : List Stake) : Prop where
  own : ∀ k s, stakes[k]? = some s → ∀ i t, 0 < s.leases i t + s.places i t → ⟨k, i, t⟩ ∈ claims
  drawn : ∀ c ∈ claims, c.ticket < drawn
  once : ∀ c ∈ claims, ∀ d ∈ claims, c.ticket = d.ticket → c = d

namespace Claimed
variable {claims : List Claim} {drawn : Nat} {stakes : List Stake} {i k ticket : Nat} {s s' : Stake}

/-- A ticket that is claimed by one is nobody else's. -/
lemma sum_eq (h : Claimed claims drawn stakes) (own : stakes[k]? = some s)
    (claim : ⟨k, i, ticket⟩ ∈ claims) :
    (stakes.map (·.leases i ticket)).sum = s.leases i ticket ∧
      (stakes.map (·.places i ticket)).sum = s.places i ticket := by
  have others (j : Nat) (b : Stake) (found : stakes[j]? = some b) (other : j ≠ k) :
      b.leases i ticket + b.places i ticket = 0 := by
    by_contra some_
    have mine := h.once _ claim _ (h.own j b found i ticket (Nat.pos_of_ne_zero some_)) rfl
    exact other (Claim.mk.inj mine).1.symm
  constructor
  · exact sum_of_single _ own fun j b found other => (Nat.add_eq_zero_iff.mp (others j b found other)).1
  · exact sum_of_single _ own fun j b found other => (Nat.add_eq_zero_iff.mp (others j b found other)).2

/-- Nobody has anything under a ticket that is still to be drawn. -/
lemma unleased (h : Claimed claims drawn stakes) (own : stakes[k]? = some s) :
    s.leases i drawn = 0 := by
  by_contra some_
  have claim := h.own k s own i drawn (by omega)
  exact absurd (h.drawn _ claim) (Nat.lt_irrefl _)

/-- Nobody needs a claim to have less. -/
lemma set (h : Claimed claims drawn stakes) (own : stakes[k]? = some s)
    (less : ∀ i t, 0 < s'.leases i t + s'.places i t → 0 < s.leases i t + s.places i t ∨
      ⟨k, i, t⟩ ∈ claims) : Claimed claims drawn (stakes.set k s') := by
  refine { h with own := fun j b found i t pos => ?_ }
  obtain ⟨rfl, rfl⟩ | ⟨-, found⟩ := eq_or_of_set found
  · exact (less i t pos).elim (h.own j s own i t) id
  · exact h.own j b found i t pos

lemma turn {leased placed : Nat} (h : Claimed claims drawn stakes) (own : stakes[k]? = some s)
    (change : s.Turn s' i ticket leased placed) (claim : 0 < leased + placed → ⟨k, i, ticket⟩ ∈ claims) :
    Claimed claims drawn (stakes.set k s') := by
  refine h.set own fun j t pos => ?_
  rw [change.leases, change.places] at pos
  by_cases same : j = i ∧ t = ticket
  · rw [if_pos same, if_pos same] at pos
    rw [same.1, same.2]
    exact .inr (claim pos)
  · rw [if_neg same, if_neg same] at pos
    exact .inl pos

lemma push (h : Claimed claims drawn stakes) : Claimed claims drawn (stakes ++ [.nothing]) := by
  refine { h with own := fun k s found i t pos => ?_ }
  rw [List.getElem?_append] at found
  split at found
  · exact h.own k s found i t pos
  · obtain rfl := List.mem_singleton.mp (List.mem_of_getElem? found)
    cases pos

/-- A ticket is drawn for someone. -/
lemma draw (h : Claimed claims drawn stakes) (owner pool : Nat) :
    Claimed (claims ++ [⟨owner, pool, drawn⟩]) (drawn + 1) stakes := by
  have fresh (c : Claim) (hc : c ∈ claims) : c.ticket ≠ drawn := Nat.ne_of_lt (h.drawn c hc)
  refine ⟨fun k s found i t pos => List.mem_append_left _ (h.own k s found i t pos),
    fun c hc => ?_, fun c hc d hd same => ?_⟩
  · rcases List.mem_append.mp hc with hc | hc
    · exact Nat.lt_succ_of_lt (h.drawn c hc)
    · obtain rfl := List.mem_singleton.mp hc
      exact Nat.lt_succ_self _
  · rcases List.mem_append.mp hc with hc | hc <;> rcases List.mem_append.mp hd with hd | hd
    · exact h.once c hc d hd same
    · obtain rfl := List.mem_singleton.mp hd
      exact absurd same (fresh c hc)
    · obtain rfl := List.mem_singleton.mp hc
      exact absurd same.symm (fresh d hd)
    · rw [List.mem_singleton.mp hc, List.mem_singleton.mp hd]

/-- Who has nothing needs no claims. -/
lemma leave (h : Claimed claims drawn stakes) (k : Nat) :
    Claimed (claims.filter (·.owner ≠ k)) drawn (stakes.set k .nothing) := by
  refine ⟨fun j b found i t pos => ?_, fun c hc => h.drawn c (List.mem_filter.mp hc).1,
    fun c hc d hd => h.once c (List.mem_filter.mp hc).1 d (List.mem_filter.mp hd).1⟩
  obtain ⟨-, rfl⟩ | ⟨other, found⟩ := eq_or_of_set found
  · cases pos
  · exact List.mem_filter.mpr ⟨h.own j b found i t pos, decide_eq_true other⟩

end Claimed

section Leaving
variable {designs : List (PoolOptions × List Nat)} {drawn k : Nat} {stakes : List Stake} {s : Stake}
  {r : Resources}

/-- What is given back is not held any more. -/
lemma Counted.release (h : Counted designs r.pools drawn stakes) (own : stakes[k]? = some s)
    {g : Guard} (held : g ∈ s.held) :
    Counted designs (r.release g).pools drawn
      (stakes.set k { s with held := s.held.filter (· ≠ g) }) := by
  cases g with
  | admission =>
    refine h.replace own (fun i t => ?_) (fun _ _ => rfl) fun _ => rfl
    exact List.count_filter (decide_eq_true nofun)
  | lease pool ticket =>
    have pos : 0 < s.leases pool ticket := List.count_pos_iff.mpr held
    refine h.turn own (Nat.le_refl _) Stake.turn_without
      (fun p at_ => h.alone_of_pos own at_ (Nat.add_pos_left pos _)) (fun p at_ => ?_) fun p at_ => ?_
    · exact (h.sound pool p at_).release
    · rw [← (h.alone_of_pos own at_ (Nat.add_pos_left pos _)).2]
      exact Pool.turn_release p ticket

lemma Counted.releaseAll {guards : List Guard} (h : Counted designs r.pools drawn stakes)
    (own : stakes[k]? = some { held := guards }) (once : guards.Nodup) :
    Counted designs (r.releaseAll guards).pools drawn (stakes.set k .nothing) := by
  induction guards generalizing r stakes with
  | nil => exact (set_of_getElem? own).symm ▸ h
  | cons g rest ih =>
    obtain ⟨new, once⟩ := List.nodup_cons.mp once
    have left : (g :: rest).filter (· ≠ g) = rest := by
      rw [List.filter_cons_of_neg (by simp)]
      exact List.filter_eq_self.mpr fun g' hg => decide_eq_true fun same => new (same ▸ hg)
    have step := h.release own List.mem_cons_self
    rw [left] at step
    have lt := (List.getElem?_eq_some_iff.mp own).1
    have rest_ := ih step (List.getElem?_set_self lt) once
    rwa [List.set_set] at rest_

lemma Resources.release_kept (r : Resources) (g : Guard) :
    (r.release g).claims = r.claims ∧ (r.release g).ticketsDrawn = r.ticketsDrawn := by
  cases g <;> exact ⟨rfl, rfl⟩

lemma Resources.releaseAll_kept (r : Resources) (guards : List Guard) :
    (r.releaseAll guards).claims = r.claims ∧
      (r.releaseAll guards).ticketsDrawn = r.ticketsDrawn := by
  induction guards generalizing r with
  | nil => exact ⟨rfl, rfl⟩
  | cons g rest ih =>
    obtain ⟨claims, drawn⟩ := ih (r.release g)
    exact ⟨claims.trans (r.release_kept g).1, drawn.trans (r.release_kept g).2⟩

/-- Everything that was claimed is dropped, and what was not taken or has been given back stays so. -/
lemma Counted.dropAll {claims list : List Claim} (h : Counted designs r.pools drawn stakes)
    (claimed : Claimed claims drawn stakes) (own : stakes[k]? = some s)
    (mine : ∀ c ∈ list, c ∈ claims ∧ c.owner = k) :
    Counted designs (list.foldl
      (fun r c => r.updatePool c.pool fun p => ((p.cancel c.ticket).release c.ticket).1) r).pools drawn
      (stakes.set k (s.dropAll list)) := by
  induction list generalizing r stakes s with
  | nil => exact (set_of_getElem? own).symm ▸ h
  | cons c rest ih =>
    obtain ⟨⟨member, rfl⟩, mine⟩ := List.forall_mem_cons.mp mine
    obtain ⟨leases, places⟩ := claimed.sum_eq own member
    have change : s.Turn (s.drop c.pool c.ticket) c.pool c.ticket 0 0 := Stake.turn_drop
    have step := h.turn own (Nat.le_refl _) change
      (f := fun p => ((p.cancel c.ticket).release c.ticket).1)
      (fun p at_ => ⟨(h.leases _ p at_ _).trans leases, (h.places _ p at_ _).trans places⟩)
      (fun p at_ => (h.sound _ p at_).cancel.release) fun p at_ => by
        have left := Pool.turn_cancel (h.sound _ p at_).orderly c.ticket
        have back := Pool.turn_release (p.cancel c.ticket) c.ticket
        rw [left.places, if_pos rfl] at back
        exact left.trans back
    have claimed := claimed.turn own change nofun
    have lt := (List.getElem?_eq_some_iff.mp own).1
    have rest_ := ih (r := r.updatePool c.pool _) step claimed (List.getElem?_set_self lt) mine
    rwa [List.set_set] at rest_

lemma Resources.abandon_claims (r : Resources) (owner : Nat) :
    (r.abandon owner).claims = r.claims.filter (·.owner ≠ owner) ∧
      (r.abandon owner).ticketsDrawn = r.ticketsDrawn := by
  have dropped (list : List Claim) (r : Resources) :
      let left := list.foldl
        (fun r c => r.updatePool c.pool fun p => ((p.cancel c.ticket).release c.ticket).1) r
      left.claims = r.claims ∧ left.ticketsDrawn = r.ticketsDrawn := by
    induction list generalizing r with
    | nil => exact ⟨rfl, rfl⟩
    | cons c rest ih => exact ih (r.updatePool c.pool _)
  exact dropped _ _

/-- Who goes away leaves nothing behind. -/
lemma Counted.abandon (h : Counted designs r.pools drawn stakes)
    (claimed : Claimed r.claims drawn stakes) (own : stakes[k]? = some s) :
    Counted designs (r.abandon k).pools drawn (stakes.set k .nothing) := by
  have mine (c : Claim) (hc : c ∈ r.claims.filter (·.owner = k)) : c ∈ r.claims ∧ c.owner = k := by
    obtain ⟨hc, owner⟩ := List.mem_filter.mp hc
    exact ⟨hc, of_decide_eq_true owner⟩
  have own_ (i t : Nat) (pos : 0 < s.leases i t + s.places i t) :
      ∃ c ∈ r.claims.filter (·.owner = k), c.pool = i ∧ c.ticket = t :=
    ⟨_, List.mem_filter.mpr ⟨claimed.own k s own i t pos, decide_eq_true rfl⟩, rfl, rfl⟩
  have gone := Stake.dropAll_eq_zero own_
  have dropped := h.dropAll (r := { r with claims := r.claims.filter (·.owner ≠ k) }) claimed own mine
  have lt := (List.getElem?_eq_some_iff.mp own).1
  rw [← List.set_set]
  exact dropped.replace (List.getElem?_set_self lt) (fun i t => (gone i t).1.symm)
    (fun i t => (gone i t).2.symm) fun i => (Stake.queued_eq_zero fun i t => (gone i t).2).symm

end Leaving

section Asking
variable {designs : List (PoolOptions × List Nat)} {k pool : Nat} {stakes : List Stake} {s : Stake}
  {r : Resources}

lemma Pool.ticket_of_enter {p q : Pool} {now ticket : Nat} {lease : Lease}
    (h : p.enter now ticket = (q, .granted lease)) : lease.ticket = ticket := by
  have entry := enters_of_enter p now ticket
  rw [h] at entry
  cases entry with
  | granted found => exact found.ticket_eq

lemma Pool.ticket_of_settleIn {p q : Pool} {now ticket : Nat} {lease : Lease}
    (h : p.settleIn now ticket = (q, .granted lease)) : lease.ticket = ticket := by
  have looks := looks_of_settleIn p now ticket
  rw [h] at looks
  cases looks with
  | granted found => exact found.ticket_eq

lemma Resources.ticket_of_lease {outcome : Admittance} {more : Resources} {ticket : Nat}
    (h : r.lease k pool = (more, ticket, outcome)) :
    ticket = r.ticketsDrawn ∧ ∀ lease, outcome = .granted lease → lease.ticket = ticket := by
  unfold Resources.lease at h
  dsimp only at h
  split at h
  · cases h
    exact ⟨rfl, nofun⟩
  · cases h
    refine ⟨rfl, fun lease granted => Pool.ticket_of_enter (Prod.ext rfl granted)⟩

/-- Whoever asks has what is answered, under a ticket of his own. -/
lemma Counted.asked (h : Counted designs r.pools r.ticketsDrawn stakes)
    (claimed : Claimed r.claims r.ticketsDrawn stakes) (own : stakes[k]? = some s)
    (nowhere : s.place = none) (outcome : Admittance) (f : Pool → Pool)
    (sound : ∀ p, r.pools[pool]? = some p → (f p).Sound (r.ticketsDrawn + 1))
    (turn : ∀ p, r.pools[pool]? = some p →
      Pool.Turn p (f p) r.ticketsDrawn outcome.leases outcome.places) :
    Counted designs (r.pools.modify pool f) (r.ticketsDrawn + 1)
        (stakes.set k (s.answered pool r.ticketsDrawn outcome)) ∧
      Claimed (r.claims ++ [⟨k, pool, r.ticketsDrawn⟩]) (r.ticketsDrawn + 1)
        (stakes.set k (s.answered pool r.ticketsDrawn outcome)) := by
  have change : s.Turn (s.answered pool r.ticketsDrawn outcome) pool r.ticketsDrawn _ _ :=
    Stake.turn_answered (claimed.unleased own) (.inl nowhere)
  refine ⟨h.turn own (Nat.le_succ _) change (fun p at_ => ?_) sound turn, ?_⟩
  · exact h.alone_of_new own at_ (Nat.le_refl _)
  · exact (claimed.draw k pool).turn own change fun _ =>
      List.mem_append_right _ (List.mem_singleton.mpr rfl)

lemma Counted.lease (h : Counted designs r.pools r.ticketsDrawn stakes)
    (claimed : Claimed r.claims r.ticketsDrawn stakes) (own : stakes[k]? = some s)
    (nowhere : s.place = none) {outcome : Admittance} {more : Resources} {ticket : Nat}
    (asked : r.lease k pool = (more, ticket, outcome)) :
    Counted designs more.pools more.ticketsDrawn (stakes.set k (s.answered pool ticket outcome)) ∧
      Claimed more.claims more.ticketsDrawn (stakes.set k (s.answered pool ticket outcome)) := by
  unfold Resources.lease at asked
  dsimp only at asked
  split at asked
  · next absent =>
    cases asked
    have none_ (p : Pool) (at_ : r.pools[pool]? = some p) : False := nomatch absent.symm.trans at_
    have all := h.asked claimed own nowhere (.refused (.internal "no such pool")) id
      (fun p at_ => (none_ p at_).elim) fun p at_ => (none_ p at_).elim
    rwa [List.modify_id] at all
  · next p at_ =>
    cases asked
    rw [← modify_eq_set at_ fun p => (p.enter r.now r.ticketsDrawn).1]
    refine h.asked claimed own nowhere _ _ (fun q found => ?_) fun q found => ?_
    · exact (h.sound pool q found).enter (Nat.le_refl _)
    · obtain rfl := Option.some.inj (at_.symm.trans found)
      exact Pool.turn_enter (h.sound pool p at_).orderly (Nat.le_refl _)

/-- Ask a pool for a lease that is free at once. -/
def Resources.tryLease (r : Resources) (owner pool : Nat) : Resources × Option Lease :=
  let ticket := r.ticketsDrawn
  let r := { r with ticketsDrawn := ticket + 1, claims := r.claims ++ [⟨owner, pool, ticket⟩] }
  match r.pools[pool]? with
  | none => (r, none)
  | some p =>
    let (p, lease) := p.tryLease r.now ticket
    ({ r with pools := r.pools.set pool p }, lease)

lemma Resources.ticket_of_tryLease {more : Resources} {lease : Lease}
    (h : r.tryLease k pool = (more, some lease)) : lease.ticket = r.ticketsDrawn := by
  unfold Resources.tryLease at h
  dsimp only at h
  split at h
  · cases h
  · exact (Pool.grants_of_tryLease (Prod.ext rfl (Prod.mk.inj h).2)).ticket_eq

/-- Who does not wait has a lease or what he had. -/
lemma Counted.tryLease (h : Counted designs r.pools r.ticketsDrawn stakes)
    (claimed : Claimed r.claims r.ticketsDrawn stakes) (own : stakes[k]? = some s)
    (nowhere : s.place = none) {lease : Option Lease} {more : Resources}
    (asked : r.tryLease k pool = (more, lease)) (f : Failure) :
    let s' := s.answered pool r.ticketsDrawn (lease.elim (.refused f) .granted)
    Counted designs more.pools more.ticketsDrawn (stakes.set k s') ∧
      Claimed more.claims more.ticketsDrawn (stakes.set k s') := by
  unfold Resources.tryLease at asked
  dsimp only at asked
  split at asked
  · next absent =>
    cases asked
    have none_ (p : Pool) (at_ : r.pools[pool]? = some p) : False := nomatch absent.symm.trans at_
    have all := h.asked claimed own nowhere (.refused f) id (fun p at_ => (none_ p at_).elim)
      fun p at_ => (none_ p at_).elim
    rwa [List.modify_id] at all
  · next p at_ =>
    cases asked
    rw [← modify_eq_set at_ fun p => (p.tryLease r.now r.ticketsDrawn).1]
    refine h.asked claimed own nowhere _ _ (fun q found => ?_) fun q found => ?_
    · exact (h.sound pool q found).tryLease (Nat.le_refl _)
    · obtain rfl := Option.some.inj (at_.symm.trans found)
      have turn : Pool.Turn p (p.tryLease r.now r.ticketsDrawn).1 _ _ _ :=
        Pool.turn_tryLease (h.sound pool p at_).orderly (Nat.le_refl _)
      cases e : (p.tryLease r.now r.ticketsDrawn).2 with
      | some lease => rwa [e] at turn
      | none => rwa [e] at turn

/-- A request that was woken looks, and has what is answered. -/
lemma Counted.look (h : Counted designs r.pools r.ticketsDrawn stakes)
    (claimed : Claimed r.claims r.ticketsDrawn stakes) (own : stakes[k]? = some s) {w : Woken}
    (place : s.place = some (pool, w.ticket)) {p : Pool} (at_ : r.pools[pool]? = some p) {i : Nat}
    (woken : p.woken[i]? = some w) :
    let look := { p with woken := p.woken.eraseIdx i }.settleIn r.now w.ticket
    s.leases pool w.ticket = 0 ∧
      Counted designs (r.updatePool pool fun _ => look.1).pools r.ticketsDrawn
        (stakes.set k (s.answered pool w.ticket look.2)) ∧
      Claimed r.claims r.ticketsDrawn (stakes.set k (s.answered pool w.ticket look.2)) := by
  intro look
  have placed : s.places pool w.ticket = 1 := Stake.places_own place
  have pos : 0 < s.leases pool w.ticket + s.places pool w.ticket := by omega
  have alone := h.alone_of_pos own at_ pos
  have unleased : s.leases pool w.ticket = 0 := by
    have once := (h.sound pool p at_).orderly.once w.ticket
    obtain ⟨leases, places⟩ := alone
    rw [Pool.uses_eq] at once
    omega
  have change : s.Turn (s.answered pool w.ticket look.2) pool w.ticket _ _ :=
    Stake.turn_answered unleased (.inr place)
  refine ⟨unleased, ?_, claimed.turn own change fun _ => claimed.own k s own _ _ pos⟩
  refine h.turn own (Nat.le_refl _) change (fun q found => ?_) (fun q found => ?_) fun q found => ?_
  all_goals obtain rfl := Option.some.inj (at_.symm.trans found)
  · exact alone
  · exact (h.sound pool p at_).settleIn woken
  · exact Pool.turn_settleIn (h.sound pool p at_).orderly woken

/-- A report changes nobody's stake. -/
lemma Counted.report (h : Counted designs r.pools r.ticketsDrawn stakes)
    (claimed : Claimed r.claims r.ticketsDrawn stakes) (pool : Nat) {f : Pool → Pool × List Event × Bool}
    (sound : ∀ p, p.Sound r.ticketsDrawn → (f p).1.Sound r.ticketsDrawn)
    (still : ∀ p, Pool.Still p (f p).1) :
    Counted designs (r.report pool f).pools (r.report pool f).ticketsDrawn stakes ∧
      Claimed (r.report pool f).claims (r.report pool f).ticketsDrawn stakes := by
  unfold Resources.report
  split
  · exact ⟨h, claimed⟩
  · next p at_ =>
    refine ⟨?_, claimed⟩
    change Counted designs (r.pools.set pool (f p).1) r.ticketsDrawn stakes
    rw [← modify_eq_set at_ fun p => (f p).1]
    exact h.still (fun q found => sound q (h.sound pool q found)) fun q _ => still q

end Asking
end Gateway
