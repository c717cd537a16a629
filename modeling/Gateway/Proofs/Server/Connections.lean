import Gateway.Proofs.Proxy.Target
import Gateway.Proofs.Server.Traffic

/-! The connections of a gateway under traffic. Hosts count the leases that are held on them, within what
their proxy allows, and pools count the requests that are parked at them. -/
namespace Gateway

/-- The pool that is made for a proxy. -/
def Config.Proxy.pool (c : Config.Proxy) (name : String) (backends : List String) : Pool :=
  { name
    hosts := (Registry.hostsOf backends c.maxConnectionsPerHost).1
    options := c.poolOptions }

namespace Registry
variable {a : Assembly} {files : FileTree} {g : Registry} {c : Config.Proxy} {name : String}
  {backends : List String}

lemma Built.pools_made (h : Built a files g) :
    ∀ pool ∈ g.pools, ∃ (c : Config.Proxy) (name : String) (backends : List String),
      pool = c.pool name backends := by
  let Made (g : Registry) : Prop := ∀ pool ∈ g.pools,
    ∃ (c : Config.Proxy) (name : String) (backends : List String), pool = c.pool name backends
  have made : Made g := by
    refine h.induct nofun (fun r s route pools hr binds ok pool hp => ?_) fun r hr => ?_
    · rcases List.mem_append.mp ((addsOnly_of_bind ok).pools hp) with old | new
      · exact hr pool old
      · cases binds with
        | service => cases new
        | proxy name backends options => exact ⟨options, name, backends, List.mem_singleton.mp new⟩
        | static => cases new
    · unfold Registry.freeze
      split <;> exact hr
  exact made

lemma start_of_mem_pool {host : Host} (h : host ∈ (c.pool name backends).hosts) :
    host.active = 0 ∧ host.budget = max 1 (min c.softMaxConnections c.connections) := by
  obtain ⟨uri, parsed⟩ := exists_of_mem_hostsOf h
  unfold parseBackend at parsed
  split at parsed
  · cases parsed
  · split at parsed
    · cases parsed
    · next made =>
      obtain rfl := Except.ok.inj parsed
      unfold Host.ofUri at made
      split at made
      · cases made
      · split at made
        · cases made
        · obtain rfl := Except.ok.inj made
          refine ⟨rfl, ?_⟩
          dsimp only [Config.Proxy.maxConnectionsPerHost]
          omega

end Registry

/-- The ticket of a lease of this pool. -/
def Guard.ticketAt? (pool : Nat) : Guard → Option Nat
  | .admission => none
  | .lease p ticket => if p = pool then some ticket else none

def Task.isQueuedAt (pool : Nat) : Task → Bool
  | .queued _ p _ _ => p = pool
  | _ => false

namespace Traffic

/-- The tickets of the leases of a pool that are held, by requests on their way or by answers. -/
def ticketsAt (v : Traffic) (pool : Nat) : List Nat :=
  v.stakes.flatMap fun s => s.held.filterMap (·.ticketAt? pool)

lemma count_ticketsAt (v : Traffic) (pool ticket : Nat) :
    (v.ticketsAt pool).count ticket = (v.stakes.map (·.leases pool ticket)).sum := by
  rw [ticketsAt, List.count_flatMap]
  refine congrArg List.sum (List.map_congr_left fun s _ => ?_)
  dsimp only [Function.comp_apply, Stake.leases]
  rw [List.count, List.countP_filterMap, List.count]
  refine List.countP_congr fun guard _ => ?_
  cases guard with
  | admission => simp [Guard.ticketAt?]
  | lease p t =>
    by_cases same : p = pool
    · simp [Guard.ticketAt?, same]
    · simp [Guard.ticketAt?, same]

lemma countP_isQueuedAt (tasks : List Task) (pool : Nat) :
    tasks.countP (·.isQueuedAt pool) = ((tasks.map Task.stake).map (·.queued pool)).sum := by
  induction tasks with
  | nil => rfl
  | cons task rest ih =>
    have own : task.stake.queued pool = if task.isQueuedAt pool then 1 else 0 := by
      cases task with
      | queued held p ticket next => simp [Task.stake, Stake.queued, Task.isQueuedAt]
      | _ => rfl
    rw [List.countP_cons, List.map_cons, List.map_cons, List.sum_cons, ih, own, Nat.add_comm]

/-- Before anyone comes nothing has been given out. -/
lemma balanced_ofPools {pools : List Pool}
    (made : ∀ p ∈ pools, ∃ (c : Config.Proxy) (name : String) (backends : List String),
      p = c.pool name backends) : Balanced (pools.map Pool.design) (ofPools pools) := by
  have fresh (i : Nat) (p : Pool) (at_ : pools[i]? = some p) :
      p.Sound 0 ∧ (∀ t, p.leasesOf t = 0) ∧ (∀ t, p.placesOf t = 0) ∧ p.queued = 0 := by
    obtain ⟨c, name, backends, rfl⟩ := made p (List.mem_of_getElem? at_)
    have idle : ∀ h ∈ (c.pool name backends).hosts, h.active = 0 :=
      fun h hm => (Registry.start_of_mem_pool hm).1
    exact ⟨⟨Pool.orderly_start .., Pool.Ledger.accounted_start idle⟩, fun _ => rfl, fun _ => rfl, rfl⟩
  refine ⟨⟨rfl, fun i p at_ => (fresh i p at_).1, fun i p at_ => (fresh i p at_).2.1,
    fun i p at_ => (fresh i p at_).2.2.1, fun i p at_ => (fresh i p at_).2.2.2⟩, ⟨?_, ?_, ?_⟩, ?_⟩
  · intro k s none_
    cases none_
  · intro c none_
    cases none_
  · intro c none_
    cases none_
  · intro k task none_
    cases none_

/-- A move of a gateway with these routes: a request is dispatched, or someone else moves who gives back
what he takes. -/
def Move.Of (t : RoutingTable) (m : Move) : Prop :=
  (∃ s r, Server.table s = t ∧ m = .start (s.dispatch r)) ∨ m.Proper

variable {a : Assembly} {files : FileTree} {g : Registry} {t : RoutingTable}

/-- Whatever happens, the connections of a host are the leases on it, which are held by someone, and there
are no more of them than its proxy allows. The queue of a pool is as long as there are requests parked at
it, and no longer than it may be. -/
theorem connections_accounted (hg : Registry.Built a files g) (ht : g.table = some t) (ha : a.Owns)
    (services : t.ServicesOwn a) {moves : List Move} (legal : ∀ m ∈ moves, m.Of t) :
    let v := (ofPools g.pools).run moves
    v.resources.pools.length = g.pools.length ∧ ∀ i p, v.resources.pools[i]? = some p →
      ∃ (c : Config.Proxy) (name : String) (backends : List String),
        g.pools[i]? = some (c.pool name backends) ∧
        (∀ j host, p.hosts[j]? = some host →
          host.active = p.leases.countP (·.host = j) ∧
            host.active ≤ max 1 (min c.softMaxConnections c.connections)) ∧
        (p.leases.map (·.ticket)).Perm (v.ticketsAt i) ∧ (v.ticketsAt i).Nodup ∧
        p.queued = v.tasks.countP (·.isQueuedAt i) ∧
        (c.maxQueueSize ≠ 0 → p.queued ≤ c.maxQueueSize) := by
  intro v
  have proper (m : Move) (hm : m ∈ moves) : m.Proper := by
    rcases legal m hm with ⟨s, r, rfl, rfl⟩ | proper
    · exact Server.owns_dispatch hg ht ha services r
    · exact proper
  have made := hg.pools_made
  have balanced : Balanced (g.pools.map Pool.design) v := (balanced_ofPools made).run proper
  have counted := balanced.counted
  have lengths := congrArg List.length counted.design
  rw [List.length_map, List.length_map] at lengths
  refine ⟨lengths, fun i p at_ => ?_⟩
  have sound := counted.sound i p at_
  have design : (g.pools[i]?).map Pool.design = some p.design := by
    rw [← List.getElem?_map, ← counted.design, List.getElem?_map, at_]
    rfl
  obtain ⟨q, first, design⟩ := Option.map_eq_some_iff.mp design
  obtain ⟨c, name, backends, rfl⟩ := made q (List.mem_of_getElem? first)
  obtain ⟨options, budgets⟩ := Prod.mk.inj design
  have held (ticket : Nat) : (p.leases.map (·.ticket)).count ticket = (v.ticketsAt i).count ticket := by
    rw [count_ticketsAt, ← counted.leases i p at_, List.count, List.countP_map]
    rfl
  have perm := List.perm_iff_count.mpr held
  refine ⟨c, name, backends, first, fun j host found => ?_, perm, ?_, ?_, fun bounded => ?_⟩
  · refine ⟨sound.accounted.active j host found, ?_⟩
    have within := sound.accounted.within j host found
    have budget : host.budget ∈ (c.pool name backends).hosts.map Host.budget := by
      rw [budgets]
      exact List.mem_map_of_mem (List.mem_of_getElem? found)
    obtain ⟨old, member, same⟩ := List.mem_map.mp budget
    rwa [← same, (Registry.start_of_mem_pool member).2] at within
  · refine perm.nodup_iff.mp (List.nodup_iff_count_le_one.mpr fun ticket => ?_)
    have once := sound.orderly.lease_once ticket
    rwa [List.count, List.countP_map]
  · rw [countP_isQueuedAt]
    exact counted.queued i p at_
  · have size : p.options.maxQueueSize = c.maxQueueSize := congrArg PoolOptions.maxQueueSize options.symm
    rw [← size]
    exact sound.orderly.bounded (by omega)

/-- Such gateways hold nothing on the side. -/
lemma openTo_owns (account : Account) (edit : Headers → Headers) : (openTo account edit).Owns where
  security :=
    { mechanisms := fun m hm => by
        obtain rfl := List.mem_singleton.mp hm
        exact .pure _
      tokens := nofun }
  interceptors p hp := by
    obtain rfl := List.mem_singleton.mp hp
    exact Handler.owns_changeHeaders

/-- A proxy that may have one connection, and one request waiting for it, is asked three times. The first
answer is not read, so that its lease is the one connection, the second request is parked, and the third
is refused. -/
theorem one_connection_accounted :
    let ada : Account := .withRoles "ada" []
    let c : Config.Proxy := { softMaxConnections := 1, maxQueueSize := 1 }
    let backends := ["http://b:80/base/"]
    let t : RoutingTable := ⟨[], [openRoute ada id], (openTo ada id).notManaged⟩
    let asked : Move := .start (Server.dispatch { table := t, gate := .ofLimit 0 }
      { uri := { path := "/api/x" } })
    let env : Surroundings :=
      { token := toString, requestId := toString
        network := fun _ _ => .answered .ok {} (.stream [[1]]) }
    let moves : List Move := asked :: List.replicate 5 (.advance env 0) ++
      [asked, .advance env 1, asked, .advance env 2]
    (∃ g, Registry.Built (openTo ada id) {} g ∧ g.table = some t ∧
      g.pools = [c.pool "api" backends]) ∧
    (openTo ada id).Owns ∧ t.ServicesOwn (openTo ada id) ∧ (∀ m ∈ moves, m.Of t) ∧
    let v := (ofPools [c.pool "api" backends]).run moves
    ∃ p host, v.resources.pools = [p] ∧ p.hosts = [host] ∧ host.active = 1 ∧
      p.leases.countP (·.host = 0) = 1 ∧ (p.leases.map (·.ticket)).Perm (v.ticketsAt 0) ∧
      p.queued = 1 ∧ v.tasks.countP (·.isQueuedAt 0) = 1 := by
  intro ada c backends t asked env moves
  have bare : (Move.advance env 0).Proper := by
    intro lease request status headers body e
    cases e
    rfl
  have legal (m : Move) (hm : m ∈ moves) : m.Of t := by
    have dispatched : asked.Of t := .inl ⟨_, _, rfl, rfl⟩
    simp only [moves, List.mem_append, List.mem_cons, List.mem_replicate, List.not_mem_nil,
      or_false] at hm
    rcases hm with (rfl | ⟨-, rfl⟩) | rfl | rfl | rfl | rfl
    exacts [dispatched, .inr bare, dispatched, .inr bare, dispatched, .inr bare]
  have services : t.ServicesOwn (openTo ada id) := by
    rintro route (hm | hm) kind
    · cases hm
    · obtain rfl := List.mem_singleton.mp hm
      cases kind
  have table : RoutingTable.ofRoutes [] [openRoute ada id] (openTo ada id).notManaged = t := by
    rw [RoutingTable.ofRoutes, List.mergeSort_singleton]
  have proxied : Registry.Built (openTo ada id) {} _ := .proxy "/api/" "api" backends c .empty rfl
  obtain ⟨g, built, frozen, pools⟩ : ∃ g, Registry.Built (openTo ada id) {} g ∧ g.table = some t ∧
      g.pools = [c.pool "api" backends] := ⟨_, .freeze proxied, congrArg some table, rfl⟩
  refine ⟨⟨g, built, frozen, pools⟩, openTo_owns .., services, legal, ?_⟩
  intro v
  have evaluated : v.resources.pools.map (fun p => (p.hosts.map Host.active, p.queued)) = [([1], 1)] := by
    decide +kernel
  obtain ⟨-, accounts⟩ := connections_accounted built frozen (openTo_owns ..) services legal
  rw [pools] at accounts
  obtain ⟨p, alone, now⟩ := List.map_eq_singleton_iff.mp evaluated
  obtain ⟨active, queued⟩ := Prod.mk.inj now
  obtain ⟨host, only, one⟩ := List.map_eq_singleton_iff.mp active
  obtain ⟨_, _, _, _, hosts, perm, _, parked, _⟩ := accounts 0 p (by rw [alone]; rfl)
  have counted := (hosts 0 host (by rw [only]; rfl)).1
  exact ⟨p, host, alone, only, one, counted.symm.trans one, perm, queued, parked.symm.trans queued⟩

end Traffic
end Gateway
