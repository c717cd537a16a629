import Gateway.Proofs.Balance.Steps

/-! Whom leases are for. A pool keeps the addresses of its hosts, and what it grants is a connection to
one of them. -/
namespace Gateway

/-- The address of the host is the lease's. -/
def Lease.IsFor (lease : Lease) (h : Host) : Prop :=
  lease.authority = h.authority ∧ lease.basePath = h.basePath

def Admittance.lease? : Admittance → Option Lease
  | granted lease => some lease
  | refused _ => none
  | waits => none

namespace Pool
variable {p q : Pool} {now retry ticket : Nat} {lease : Lease} {b b' : Ledger} {a : Act}

/-- The lease that a step hands out. -/
def Moment.granted (m : Moment) : Act → Option Lease
  | .tryLease => (m.pool.tryLease m.now m.drawn).2
  | .enter => (m.pool.enter m.now m.drawn).2.lease?
  | .look k =>
    match m.pool.woken[k]? with
    | some w =>
      ({ m.pool with woken := m.pool.woken.eraseIdx k }.settleIn m.now w.ticket).2.lease?
    | none => none
  | _ => none

/-- What identifies a host whatever becomes of it. -/
def Ledger.addresses (b : Ledger) : List (String × String) :=
  b.hosts.map fun h => (h.authority, h.basePath)

lemma Shift.addresses (h : Shift now retry a b b') : b'.addresses = b.addresses :=
  h.map_hosts (fun h => (h.authority, h.basePath)) fun _ _ _ _ => rfl

lemma Moment.run_addresses (m : Moment) (acts : List Act) :
    (m.run acts).pool.ledger.addresses = m.pool.ledger.addresses := by
  induction acts generalizing m with
  | nil => rfl
  | cons a rest ih => exact (ih (m.step a)).trans (m.step_shift a).addresses

/-- The lease is for a host of the pool. -/
def Hosts (p : Pool) (lease : Lease) : Prop := ∃ h ∈ p.hosts, lease.IsFor h

lemma hosts_congr (h : p.ledger.addresses = q.ledger.addresses) : p.Hosts lease ↔ q.Hosts lease := by
  have member (p : Pool) :
      p.Hosts lease ↔ (lease.authority, lease.basePath) ∈ p.ledger.addresses := by
    simp only [Hosts, Lease.IsFor, Ledger.addresses, ledger, List.mem_map, Prod.mk.injEq,
      eq_comm (a := lease.authority), eq_comm (a := lease.basePath)]
  rw [member, member, h]

lemma hosts_of_tryLease (h : p.tryLease now ticket = (q, some lease)) : p.Hosts lease := by
  unfold tryLease at h
  split at h
  · next i host found =>
    obtain ⟨j, -, at_, rfl⟩ := exists_of_found found
    obtain rfl := Option.some.inj (Prod.mk.inj h).2
    exact ⟨_, List.mem_of_getElem? at_, rfl, rfl⟩
  · dsimp only at h
    split at h
    · next i host found =>
      obtain ⟨j, -, at_, rfl⟩ := exists_of_found found
      obtain rfl := Option.some.inj (Prod.mk.inj h).2
      exact ⟨_, List.mem_of_getElem? at_, rfl, rfl⟩
    · cases (Prod.mk.inj h).2

lemma hosts_of_look (h : (p.look now ticket).2.lease? = some lease) : p.Hosts lease := by
  unfold look at h
  split at h
  · next q given e =>
    obtain rfl := Option.some.inj h
    exact hosts_of_tryLease e
  · split at h
    · cases h
    · cases h

lemma hosts_of_settleIn (h : (p.settleIn now ticket).2.lease? = some lease) : p.Hosts lease := by
  unfold settleIn at h
  split at h
  · split at h
    · next q given e =>
      obtain rfl := Option.some.inj h
      exact hosts_of_tryLease (p := { p with spare := false }) e
    · next q e =>
      rw [tryLease_none e] at h
      split at h
      · exact hosts_of_look (p := { p with spare := false, cursor := q.cursor }) h
      · cases h
  · exact hosts_of_look h

lemma hosts_of_enter (h : (p.enter now ticket).2.lease? = some lease) : p.Hosts lease := by
  unfold enter at h
  split at h
  · next q given e =>
    obtain rfl := Option.some.inj h
    exact hosts_of_tryLease e
  · next q e =>
    rw [tryLease_none e] at h
    split at h
    · cases h
    · split at h
      · cases h
      · exact hosts_of_settleIn (p := { p with cursor := q.cursor, queued := p.queued + 1 }) h

lemma Moment.hosts_of_granted {m : Moment} (h : m.granted a = some lease) : m.pool.Hosts lease := by
  cases a with
  | tryLease => exact hosts_of_tryLease (Prod.ext rfl h)
  | enter => exact hosts_of_enter h
  | look k =>
    unfold granted at h
    dsimp only at h
    split at h
    · exact hosts_of_settleIn (p := { m.pool with woken := m.pool.woken.eraseIdx k }) h
    · cases h
  | _ => cases h

/-- Whatever happens to a pool, its leases are for hosts it was made with. -/
theorem Moment.hosts_of_run_granted {m : Moment} {acts : List Act}
    (h : (m.run acts).granted a = some lease) : m.pool.Hosts lease :=
  (hosts_congr (m.run_addresses acts)).mp (hosts_of_granted h)

end Pool
end Gateway
