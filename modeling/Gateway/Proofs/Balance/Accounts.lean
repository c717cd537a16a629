import Mathlib.Algebra.GroupWithZero.Nat
import Gateway.Proofs.Balance.Tickets

/-! The connections of hosts. A host counts the leases on it and never has more of them than its budget,
which nothing changes. -/
namespace Gateway

lemma exists_of_modify {α : Type} {list : List α} {i j : Nat} {f : α → α} {b : α}
    (h : (list.modify i f)[j]? = some b) : ∃ a, list[j]? = some a ∧ b = if i = j then f a else a := by
  rw [List.getElem?_modify, Option.map_eq_map] at h
  obtain ⟨a, at_, rfl⟩ := Option.map_eq_some_iff.mp h
  exact ⟨a, at_, rfl⟩

lemma modify_eq_set {α : Type} {list : List α} {i : Nat} {a : α} (at_ : list[i]? = some a)
    (f : α → α) : list.modify i f = list.set i (f a) := by
  rw [List.modify_eq_set_getElem?, at_]
  rfl

section Sums
variable {α : Type} {list : List α} {i c : Nat} {a : α} {f : α → α}

lemma sum_modify (g : α → Nat) (at_ : list[i]? = some a) :
    ((list.modify i f).map g).sum + g a = (list.map g).sum + g (f a) := by
  obtain ⟨lt, rfl⟩ := List.getElem?_eq_some_iff.mp at_
  obtain ⟨before, b, after, all, rfl, modified⟩ := List.exists_of_modify f lt
  rw [modified]
  simp only [all, List.getElem_append_right (Nat.le_refl _), Nat.sub_self, List.getElem_cons_zero,
    List.map_append, List.map_cons, List.sum_append, List.sum_cons]
  omega

lemma sum_modify_le (g : α → Nat) (le : ∀ a, g (f a) ≤ g a + c) :
    ((list.modify i f).map g).sum ≤ (list.map g).sum + c := by
  cases at_ : list[i]? with
  | none =>
    rw [List.modify_eq_self (List.getElem?_eq_none_iff.mp at_)]
    exact Nat.le_add_right ..
  | some a =>
    have sum := sum_modify (f := f) g at_
    have le := le a
    omega

end Sums

namespace Pool

namespace Ledger
variable {b : Ledger} {ticket : Nat} {l : LiveLease}

/-- Every host counts its leases, within its budget. -/
structure Accounted (b : Ledger) : Prop where
  active : ∀ (i : Nat) (h : Host), b.hosts[i]? = some h → h.active = b.leases.countP (·.host = i)
  within : ∀ (i : Nat) (h : Host), b.hosts[i]? = some h → h.active ≤ h.budget

lemma accounted_start {hosts : List Host} (idle : ∀ h ∈ hosts, h.active = 0) :
    Accounted ⟨hosts, []⟩ where
  active _ h at_ := idle h (List.mem_of_getElem? at_)
  within _ h at_ := by
    rw [idle h (List.mem_of_getElem? at_)]
    exact Nat.zero_le _

/-- No two leases have one ticket. -/
def Distinct (b : Ledger) : Prop := ∀ t, b.leases.countP (·.ticket = t) ≤ 1

/-- The lease of a ticket stands alone among the others. -/
lemma Distinct.exists_of_live (once : b.Distinct) (live : b.live? ticket = some l) :
    l.ticket = ticket ∧ ∃ before after, b.leases = before ++ l :: after ∧
      b.without ticket = before ++ after := by
  have named := List.find?_some live
  obtain rfl := of_decide_eq_true named
  exact ⟨rfl, exists_of_key LiveLease.ticket (List.mem_of_find?_eq_some live) (once l.ticket)⟩

lemma countP_host_settled (i : Nat) :
    (b.settled ticket).countP (·.host = i) = b.leases.countP (·.host = i) := by
  rw [settled, List.countP_map]
  refine List.countP_congr fun l _ => ?_
  dsimp only [Function.comp_apply]
  split <;> rfl

/-- What changes neither the connections nor the budget of a host changes no account. -/
lemma Accounted.modify (h : b.Accounted) {i : Nat} {f : Host → Host} {leases : List LiveLease}
    (active : ∀ host, (f host).active = host.active) (budget : ∀ host, (f host).budget = host.budget)
    (same : ∀ i, leases.countP (·.host = i) = b.leases.countP (·.host = i)) :
    Accounted ⟨b.hosts.modify i f, leases⟩ where
  active j host at_ := by
    obtain ⟨old, before, rfl⟩ := exists_of_modify at_
    rw [same, ← h.active j old before]
    split
    · exact active old
    · rfl
  within j host at_ := by
    obtain ⟨old, before, rfl⟩ := exists_of_modify at_
    have within := h.within j old before
    split
    · rwa [active, budget]
    · exact within

/-- A connection of a host with room is leased. -/
lemma Accounted.claim (h : b.Accounted) {i : Nat} {host : Host} (at_ : b.hosts[i]? = some host)
    (room : 0 < host.available) (f : Host → Host) (active : ∀ host, (f host).active = host.active)
    (budget : ∀ host, (f host).budget = host.budget) (probe : Bool) :
    Accounted ⟨b.hosts.modify i fun h : Host => (f h).claim,
      b.leases ++ [{ ticket, host := i, probe }]⟩ where
  active j other at_' := by
    obtain ⟨old, before, rfl⟩ := exists_of_modify at_'
    have count := h.active j old before
    simp only [List.countP_append, List.countP_singleton, decide_eq_true_eq]
    split
    · rw [← count, Host.claim, active]
    · exact count
  within j other at_' := by
    obtain ⟨old, before, rfl⟩ := exists_of_modify at_'
    have within := h.within j old before
    split
    · next same =>
      subst same
      obtain rfl := Option.some.inj (at_.symm.trans before)
      unfold Host.available at room
      simp only [Host.claim, active, budget]
      omega
    · exact within

/-- The connection of a lease is given back. -/
lemma Accounted.free (h : b.Accounted) (once : b.Distinct) (live : b.live? ticket = some l)
    (f : Host → Host) (active : ∀ host, (f host).active = host.active)
    (budget : ∀ host, (f host).budget = host.budget) :
    Accounted ⟨b.hosts.modify l.host fun h : Host => (f h).free, b.without ticket⟩ := by
  obtain ⟨rfl, before, after, all, rest⟩ := once.exists_of_live live
  constructor
  · intro j host at_
    obtain ⟨old, found, rfl⟩ := exists_of_modify at_
    have count := h.active j old found
    rw [all] at count
    simp only [rest, List.countP_append, List.countP_cons, decide_eq_true_eq] at count ⊢
    split
    · next same =>
      rw [if_pos same] at count
      simp only [Host.free, active]
      omega
    · next other =>
      rw [if_neg other] at count
      omega
  · intro j host at_
    obtain ⟨old, found, rfl⟩ := exists_of_modify at_
    have within := h.within j old found
    split
    · simp only [Host.free, active, budget]
      omega
    · exact within

end Ledger

open Ledger
variable {b b' : Ledger} {a : Act} {now retry : Nat}

private lemma settle_active (open_ : Bool) (host : Host) :
    ((if open_ then Host.abandonProbe else id) host).active = host.active := by
  split
  · unfold Host.abandonProbe
    split <;> rfl
  · rfl

private lemma settle_budget (open_ : Bool) (host : Host) :
    ((if open_ then Host.abandonProbe else id) host).budget = host.budget := by
  split
  · unfold Host.abandonProbe
    split <;> rfl
  · rfl

/-- Whatever a step does to the leases, it does to the accounts of their hosts. -/
theorem Shift.accounted (h : Shift now retry a b b') (once : b.Distinct) (hb : b.Accounted) :
    b'.Accounted := by
  cases h with
  | rest => exact hb
  | leased _ ticket at_ healthy room =>
    exact hb.claim at_ room id (fun _ => rfl) (fun _ => rfl) false
  | probed _ ticket at_ due room =>
    exact hb.claim at_ room Host.beginProbe (fun _ => rfl) (fun _ => rfl) true
  | failed ticket live at_ =>
    exact hb.modify (fun _ => rfl) (fun _ => rfl) countP_host_settled
  | succeeded ticket live at_ probe =>
    exact hb.modify (fun _ => rfl) (fun _ => rfl) countP_host_settled
  | released ticket live =>
    exact hb.free once live _ (settle_active _) (settle_budget _)

end Pool
end Gateway
