import Gateway.Proofs.Http.Absolute
import Gateway.Proofs.Route.Registry

/-! The proxies among the routes of a registry. Each has a pool of its own, whose hosts were read from
the addresses of its backends. -/
namespace Gateway

namespace Host

/-- The address of the host can stand in a target: an authority, and a path below the root that goes
up to a slash. -/
structure Addressed (h : Host) : Prop where
  authority : Uri.IsAuthority h.authority
  chars : ∀ c ∈ h.basePath.toList, Uri.isPathChar c = true
  rooted : h.basePath = "" ∨ h.basePath.toList.head? = some '/'

lemma addressed_of_ofUri {s : String} {u : Uri} {budget : Nat} {h : Host} (read : Uri.parse s = .ok u)
    (made : ofUri u budget = .ok h) : h.Addressed := by
  unfold ofUri at made
  split at made
  · cases made
  · next scheme =>
    rw [ne_eq, Classical.not_not] at scheme
    obtain ⟨⟨authority, some_, ha⟩, slash⟩ := Uri.absolute_of_parse read scheme
    rw [some_] at made
    obtain rfl := Except.ok.inj made
    have path : Uri.IsPath u.path := Uri.isRead_of_parse read (by rw [Uri.hasPath, scheme]; rfl)
    obtain ⟨n, hn⟩ := exists_slashes u.path.toList
    refine ⟨ha, fun c hc => ?_, ?_⟩
    · rw [toList_trimSlashes] at hc
      refine path.2 c ?_
      rw [hn]
      exact List.mem_append_left _ hc
    · dsimp only
      rw [toList_trimSlashes]
      by_cases root : trimSlashChars u.path.toList = []
      · left
        rw [trimSlashes, root]
      · right
        rw [← slash]
        conv_rhs => rw [hn]
        exact (List.head?_append_of_ne_nil _ root).symm

end Host

namespace Registry
variable {a : Assembly} {files : FileTree} {r s : Registry} {route : Route} {pools more : List Pool}

lemma addressed_of_parseBackend {uri : String} {budget : Nat} {host : Host}
    (h : parseBackend uri budget = .ok host) : host.Addressed := by
  unfold parseBackend at h
  split at h
  · cases h
  · next u read =>
    split at h
    · cases h
    · next made =>
      obtain rfl := Except.ok.inj h
      exact Host.addressed_of_ofUri read made

/-- All hosts of the pool were read from addresses of backends. -/
def IsRead (pool : Pool) : Prop :=
  ∀ host ∈ pool.hosts, ∃ uri budget, parseBackend uri budget = .ok host

lemma exists_of_mem_hostsOf {backends : List String} {budget : Nat} {host : Host}
    (hm : host ∈ (hostsOf backends budget).1) : ∃ uri, parseBackend uri budget = .ok host := by
  obtain ⟨parsed, hp, ok⟩ := List.mem_filterMap.mp hm
  obtain ⟨uri, -, rfl⟩ := List.mem_map.mp hp
  refine ⟨uri, ?_⟩
  cases e : parseBackend uri budget with
  | error e' =>
    rw [e] at ok
    cases ok
  | ok found =>
    rw [e] at ok
    rw [Option.some.inj ok]

lemma isRead_hostsOf {name : String} {backends : List String} {budget : Nat} {options : PoolOptions} :
    IsRead { name, hosts := (hostsOf backends budget).1, options } := by
  intro host hm
  obtain ⟨uri, parsed⟩ := exists_of_mem_hostsOf hm
  exact ⟨uri, budget, parsed⟩

/-- The route was bound to a registry, and its pools are still there. -/
def Bound (a : Assembly) (pools : List Pool) (route : Route) : Prop :=
  ∃ (s : Registry) (more : List Pool), s.assembly = a ∧ s.Binds route more ∧ s.pools ++ more <+: pools

lemma Bound.mono (h : Bound a pools route) (le : pools <+: more) : Bound a more route := by
  obtain ⟨s, own, same, binds, front⟩ := h
  exact ⟨s, own, same, binds, front.trans le⟩

/-- A proxy stands for everything below its pattern and has a pool to itself. -/
lemma Bound.proxy (h : Bound a pools route) (kind : route.kind = .proxy) :
    route.pattern.policy = .below ∧ ∃ (p : Proxy) (pool : Pool),
      route.pipeline = a.proxy route.info p.stage ∧ pools[p.pool]? = some pool ∧ IsRead pool := by
  obtain ⟨s, own, rfl, binds, rest, rfl⟩ := h
  cases binds with
  | service => cases kind
  | proxy name backends options rooted =>
    have own (pool : Pool) : (s.pools ++ [pool] ++ rest)[s.pools.length]? = some pool := by simp
    exact ⟨rfl, ⟨name, s.pools.length, options.setsHost⟩, _, rfl, own _, isRead_hostsOf⟩
  | static => cases kind

/-- Both lists of routes were bound, each with its own policy. -/
structure Lists (a : Assembly) (pools : List Pool) (exact below : List Route) : Prop where
  exact_bound : ∀ route ∈ exact, Bound a pools route
  exact_policy : ∀ route ∈ exact, route.pattern.policy = .exact
  below_bound : ∀ route ∈ below, Bound a pools route

/-- Every route of a registry was bound to it. -/
structure Traced (a : Assembly) (r : Registry) : Prop where
  assembly : r.assembly = a
  lists : Lists a r.pools r.exact r.below
  table : ∀ t, r.table = some t → Lists a r.pools t.exact t.below

lemma Traced.bind (h : Traced a r) (binds : r.Binds route pools) (ok : (r.bind route pools).1 = .ok s) :
    Traced a s := by
  have new : Bound a (r.pools ++ pools) route := ⟨r, pools, h.assembly, binds, List.prefix_rfl⟩
  have old {route : Route} (h : Bound a r.pools route) : Bound a (r.pools ++ pools) route :=
    h.mono (List.prefix_append ..)
  cases ht : r.table with
  | some t =>
    rw [bind_frozen (by rw [ht]; rfl)] at ok
    cases ok
  | none =>
    rcases bind_cases route pools ht with
      ⟨-, -, e⟩ | ⟨policy, -, e⟩ | ⟨-, -, e⟩ | ⟨-, -, e⟩
    all_goals
      rw [e] at ok
      cases ok
    · refine ⟨h.assembly, ⟨?_, ?_, fun x hx => old (h.lists.below_bound x hx)⟩, fun t e => ?_⟩
      · rw [List.forall_mem_append, List.forall_mem_singleton]
        exact ⟨fun x hx => old (h.lists.exact_bound x hx), new⟩
      · rw [List.forall_mem_append, List.forall_mem_singleton]
        exact ⟨h.lists.exact_policy, policy⟩
      · cases ht.symm.trans e
    · exact h
    · refine ⟨h.assembly, ⟨fun x hx => old (h.lists.exact_bound x hx), h.lists.exact_policy, ?_⟩,
        fun t e => ?_⟩
      · rw [List.forall_mem_append, List.forall_mem_singleton]
        exact ⟨fun x hx => old (h.lists.below_bound x hx), new⟩
      · cases ht.symm.trans e

lemma Traced.freeze (h : Traced a r) : Traced a r.freeze.1 := by
  unfold Registry.freeze
  split
  · exact h
  · refine { h with table := fun t ht => ?_ }
    obtain rfl := Option.some.inj ht
    exact { h.lists with
      below_bound := fun x hx => h.lists.below_bound x (RoutingTable.mem_below_ofRoutes.mp hx) }

theorem Built.traced (h : Built a files r) : Traced a r :=
  h.induct ⟨rfl, ⟨nofun, nofun, nofun⟩, nofun⟩ (fun _ _ _ _ hr binds ok => hr.bind binds ok)
    fun _ hr => hr.freeze

/-- A path that is resolved to a proxy is below its pattern, and the proxy has its pool. -/
theorem Traced.proxy_of_resolve {t : RoutingTable} {path : String} (h : Traced a r)
    (ht : r.table = some t) (hx : t.resolve path = some route) (kind : route.kind = .proxy) :
    Pattern.IsAbove route.pattern.text path ∧ ∃ (p : Proxy) (pool : Pool),
      route.pipeline = a.proxy route.info p.stage ∧ r.pools[p.pool]? = some pool ∧ IsRead pool := by
  have lists := h.table t ht
  rcases RoutingTable.resolve_some hx with ⟨member, -⟩ | ⟨member, covers⟩
  · have policy := ((lists.exact_bound route member).proxy kind).1
    rw [lists.exact_policy route member] at policy
    cases policy
  · obtain ⟨policy, pooled⟩ := (lists.below_bound route member).proxy kind
    exact ⟨(Pattern.covers_below_iff policy).mp covers, pooled⟩

end Registry
end Gateway
