import Gateway.Proofs.Route.Registry

/-! Entries that cannot be bound. They leave a registry as it was, so that a gateway with some of them
among its entries routes like one that was never given them. -/
namespace Gateway

namespace Registry

/-- Whether the address of a backend can be used. -/
def isBackend (budget : Nat) (uri : String) : Bool := (parseBackend uri budget).toOption.isSome

lemma hostsOf_filter (uris : List String) (budget : Nat) :
    (hostsOf (uris.filter (isBackend budget)) budget).1 = (hostsOf uris budget).1 := by
  unfold hostsOf
  simp only [List.filterMap_map]
  induction uris with
  | nil => rfl
  | cons uri rest ih =>
    cases parsed : (parseBackend uri budget).toOption with
    | none =>
      have skipped : isBackend budget uri = false := by rw [isBackend, parsed]; rfl
      rw [List.filter_cons_of_neg (by rw [skipped]; simp), ih,
        List.filterMap_cons_none (by exact parsed)]
    | some host =>
      have kept : isBackend budget uri = true := by rw [isBackend, parsed]; rfl
      rw [List.filter_cons_of_pos kept, List.filterMap_cons_some (by exact parsed), ih,
        List.filterMap_cons_some (by exact parsed)]

end Registry

namespace Config.ProxyPass

/-- Only the valid backends. -/
def pruned (budget : Nat) (pass : ProxyPass) : ProxyPass :=
  .many ((pass.uris.filter (Registry.isBackend budget)).map .string)

lemma uris_pruned (budget : Nat) (pass : ProxyPass) :
    (pass.pruned budget).uris = pass.uris.filter (Registry.isBackend budget) := by
  unfold pruned
  rw [uris, List.filterMap_map]
  exact List.filterMap_some

lemma pruned_pruned (budget : Nat) (pass : ProxyPass) :
    (pass.pruned budget).pruned budget = pass.pruned budget := by
  conv_lhs => rw [pruned, uris_pruned, List.filter_filter]
  simp only [Bool.and_self, pruned]

end Config.ProxyPass

namespace Config.Proxy

/-- The addresses among the backends. -/
def uris (p : Proxy) : List String := p.pass.elim [] ProxyPass.uris

/-- The hosts a proxy can forward to, in the order of its backends. -/
def hosts (p : Proxy) : List Host := (Registry.hostsOf p.uris p.maxConnectionsPerHost).1

/-- The proxy with only its valid backends. -/
def pruned (p : Proxy) : Proxy := { p with pass := p.pass.map (·.pruned p.maxConnectionsPerHost) }

lemma pruned_pruned (p : Proxy) : p.pruned.pruned = p.pruned := by
  have passes : (p.pass.map (·.pruned p.maxConnectionsPerHost)).map
      (·.pruned p.maxConnectionsPerHost) = p.pass.map (·.pruned p.maxConnectionsPerHost) := by
    rw [Option.map_map]
    exact congrArg (fun f => p.pass.map f) (funext fun pass => pass.pruned_pruned _)
  exact congrArg (fun pass => { p with pass }) passes

lemma hosts_pruned (p : Proxy) : p.pruned.hosts = p.hosts := by
  have uris_pruned : p.pruned.uris = p.uris.filter (Registry.isBackend p.maxConnectionsPerHost) := by
    unfold uris pruned
    cases p.pass with
    | none => rfl
    | some pass => exact pass.uris_pruned _
  unfold hosts
  rw [uris_pruned]
  exact Registry.hostsOf_filter p.uris _

end Config.Proxy

namespace Registry

/-- What a registry is plugged with. -/
inductive Entry where
  | service (p : Plugin Service)
  /-- None stands for an entry that could not be decoded. -/
  | proxy (p : Option Config.Proxy)
  | mount (m : Config.StaticMount)

namespace Entry

/-- Plug one entry. -/
def plug : Entry → Registry → Registry
  | service p, r => (r.plugServices [p]).1
  | proxy p, r => (r.plugProxies [p]).1
  | mount m, r => (r.plugStatics [m]).1

/-- The entry without what is not valid about its backends. -/
def pruned : Entry → Entry
  | proxy p => proxy (p.map Config.Proxy.pruned)
  | e => e

/-- The hosts an entry forwards to. -/
def hosts : Entry → List Host
  | proxy (some p) => p.hosts
  | _ => []

/-- The pattern an entry is for, if it has all that it needs. -/
def pattern? (files : FileTree) : Entry → Option Pattern
  | service p =>
    if p.enabled then
      (p.uri.orElse fun _ => p.behaviour.defaultUri).bind (Pattern.parse? · p.behaviour.policy)
    else none
  | proxy none => none
  | proxy (some p) =>
    if p.hosts.isEmpty then none else p.location.bind (Pattern.parse? · .below)
  | mount m =>
    if (files.directory? m.directory).isSome then Pattern.parse? m.mount .below else none

/-- How the route of an entry is known. -/
def info (pattern : Pattern) : Entry → RouteInfo
  | service p => ⟨.service, pattern.text, p.name, p.secured⟩
  | proxy p => ⟨.proxy, pattern.text, (p.bind fun p => p.name.or p.location).getD "", true⟩
  | mount m => ⟨.static, pattern.text, m.directory, false⟩

end Entry

/-- Whether a route could be bound to a pattern. -/
def isFree (r : Registry) (p : Pattern) : Bool :=
  r.table.isNone && (match p.policy with
    | .exact => r.exact
    | .below => r.below).all (·.pattern.text ≠ p.text)

/-- Whether an entry is bound. -/
def isBound (r : Registry) (e : Entry) : Bool := (e.pattern? r.files).any r.isFree

/-- The registry with one more route. -/
def add (r : Registry) (route : Route) (pools : List Pool) : Registry :=
  match route.pattern.policy with
  | .exact => { r with exact := r.exact ++ [route], pools := r.pools ++ pools }
  | .below => { r with below := r.below ++ [route], pools := r.pools ++ pools }

/-- What is left of a registry after a registration. -/
def after (r : Registry) (b : Binding) : Registry := (r.keep skippedProxy b).1

variable {r s : Registry} {e : Entry} {route : Route} {pools : List Pool}

lemma keep_fst (refusal : Event) (b : Binding) : (r.keep refusal b).1 = r.after b := by
  obtain ⟨outcome, alerts⟩ := b
  cases outcome <;> rfl

lemma isFree_iff (route : Route) (open_ : r.table = none) :
    r.isFree route.pattern = true ↔ match route.pattern.policy with
      | .exact => ¬Holds r.exact route
      | .below => ¬Holds r.below route := by
  unfold isFree Holds
  rw [open_]
  cases route.pattern.policy <;> simp

/-- A route is bound if its pattern is free, and otherwise leaves the registry as it was. -/
theorem after_bind :
    r.after (r.bind route pools) = if r.isFree route.pattern then r.add route pools else r := by
  cases ht : r.table with
  | some t =>
    have taken : r.isFree route.pattern = false := by rw [isFree, ht]; rfl
    rw [bind_frozen (by rw [ht]; rfl), taken]
    rfl
  | none =>
    have free := isFree_iff route ht
    rcases bind_cases route pools ht with
      ⟨policy, taken, e⟩ | ⟨policy, room, e⟩ | ⟨policy, taken, e⟩ | ⟨policy, room, e⟩
    all_goals
      rw [policy] at free
      rw [e, add, policy]
    · rw [if_neg fun h => free.mp h taken]
      rfl
    · rw [if_pos (free.mpr room)]
      rfl
    · rw [if_neg fun h => free.mp h taken]
      rfl
    · rw [if_pos (free.mpr room)]
      rfl

lemma after_alerts (b : Binding) (alerts : List Event) : r.after (b.1, alerts) = r.after b := by
  obtain ⟨outcome, own⟩ := b
  cases outcome <;> rfl

lemma after_bindInfo {policy : MatchPolicy} {info : RouteInfo} {pipeline : Pipeline} :
    r.after (r.bindInfo policy info pipeline pools) = r.after (r.bind
      ⟨⟨info.pattern, policy⟩, info.name, info.kind, info.secured, pipeline⟩ pools) :=
  after_alerts _ _

lemma eq_of_parse {path : String} {policy : MatchPolicy} {pattern : Pattern}
    (parsed : Pattern.parse? path policy = some pattern) : pattern = ⟨pattern.text, policy⟩ := by
  unfold Pattern.parse? at parsed
  split at parsed
  · obtain rfl := Option.some.inj parsed
    rfl
  · cases parsed

/-- The route and the pools that an entry is bound as. -/
structure Entry.Makes (e : Entry) (files : FileTree) (route : Route) (pools : List Pool) : Prop where
  pattern : e.pattern? files = some route.pattern
  info : route.info = e.info route.pattern
  hosts : pools.flatMap (·.hosts) = e.hosts

lemma plug_service (p : Plugin Service) : (Entry.service p).plug r = r.after (r.registerService p) :=
  keep_fst _ _

lemma plug_mount (m : Config.StaticMount) :
    (Entry.mount m).plug r = r.after (r.registerStatic m.mount m.directory m.welcomeFile) :=
  keep_fst _ _

lemma plug_proxy (p : Config.Proxy) :
    (Entry.proxy (some p)).plug r = r.after (r.bindProxy p) :=
  keep_fst _ _

/-- What plugging an entry comes to: it is bound as what it is, if it has all it needs, or it does
nothing. -/
inductive Entry.Plugs (e : Entry) (r : Registry) : Prop where
  | idle (pattern : e.pattern? r.files = none) (same : e.plug r = r)
  | binds (route : Route) (pools : List Pool) (makes : e.Makes r.files route pools)
      (bound : e.plug r = r.after (r.bind route pools))

lemma plugs_service (p : Plugin Service) : (Entry.service p).Plugs r := by
  by_cases enabled : p.enabled = true
  · have pattern : (Entry.service p).pattern? r.files =
        (p.uri.orElse fun _ => p.behaviour.defaultUri).bind (Pattern.parse? · p.behaviour.policy) := by
      rw [Entry.pattern?, if_pos enabled]
    have plug := plug_service (r := r) p
    rw [registerService, if_neg (by rw [enabled]; simp)] at plug
    cases located : p.uri.orElse fun _ => p.behaviour.defaultUri with
    | none =>
      rw [located] at pattern plug
      exact .idle pattern plug
    | some uri =>
      rw [located, Option.bind_some] at pattern
      simp only [located, parsePattern] at plug
      cases parsed : Pattern.parse? uri p.behaviour.policy with
      | none =>
        rw [parsed] at pattern plug
        exact .idle pattern plug
      | some found =>
        rw [parsed] at pattern plug
        exact .binds _ [] ⟨pattern, rfl, rfl⟩ (plug.trans after_bindInfo)
  · refine .idle (by rw [Entry.pattern?, if_neg enabled]) ?_
    rw [plug_service, registerService, if_pos (by simpa using enabled)]
    rfl

lemma plugs_mount (m : Config.StaticMount) : (Entry.mount m).Plugs r := by
  have plug := plug_mount (r := r) m
  rw [registerStatic, parsePattern] at plug
  have pattern : (Entry.mount m).pattern? r.files =
      if (r.files.directory? m.directory).isSome then Pattern.parse? m.mount .below else none := rfl
  cases parsed : Pattern.parse? m.mount .below with
  | none =>
    rw [parsed] at pattern plug
    exact .idle (by rw [pattern, ite_self]) plug
  | some found =>
    rw [parsed] at pattern plug
    cases root : r.files.directory? m.directory with
    | none =>
      rw [root] at pattern
      simp only [root] at plug
      exact .idle pattern plug
    | some path =>
      rw [root, Option.isSome_some, if_pos rfl, eq_of_parse parsed] at pattern
      simp only [root] at plug
      exact .binds _ [] ⟨pattern, rfl, rfl⟩ (plug.trans after_bindInfo)

lemma plugs_proxy (p : Config.Proxy) : (Entry.proxy (some p)).Plugs r := by
  have plug := plug_proxy (r := r) p
  have pattern : (Entry.proxy (some p)).pattern? r.files =
      if p.hosts.isEmpty then none else p.location.bind (Pattern.parse? · .below) := rfl
  unfold bindProxy at plug
  cases located : p.location with
  | none =>
    rw [located] at pattern plug
    exact .idle (by rw [pattern, Option.bind_none, ite_self]) plug
  | some location =>
    rw [located, Option.bind_some] at pattern
    cases passed : p.pass with
    | none =>
      rw [located, passed] at plug
      have none_ : p.hosts.isEmpty = true := by
        rw [Config.Proxy.hosts, Config.Proxy.uris, passed]
        rfl
      exact .idle (by rw [pattern, if_pos none_]) plug
    | some pass =>
      have hosts : (hostsOf pass.uris p.maxConnectionsPerHost).1 = p.hosts := by
        rw [Config.Proxy.hosts, Config.Proxy.uris, passed]
        rfl
      simp only [located, passed, after_alerts] at plug
      unfold registerProxy parsePattern at plug
      cases parsed : Pattern.parse? location .below with
      | none =>
        rw [parsed] at pattern plug
        exact .idle (by rw [pattern, ite_self]) plug
      | some found =>
        rw [parsed, eq_of_parse parsed] at pattern
        simp only [parsed, hosts] at plug
        by_cases empty : p.hosts.isEmpty = true
        · rw [if_pos empty] at pattern plug
          exact .idle pattern plug
        · rw [if_neg empty] at pattern plug
          rw [after_alerts, after_bindInfo] at plug
          refine .binds _ _ ⟨pattern, ?_, List.append_nil _⟩ plug
          rw [Entry.info, Option.bind_some, located]
          cases p.name <;> rfl

lemma plugs (e : Entry) (r : Registry) : e.Plugs r := by
  cases e with
  | service p => exact plugs_service p
  | proxy p =>
    cases p with
    | none => exact .idle rfl rfl
    | some p => exact plugs_proxy p
  | mount m => exact plugs_mount m

/-- A registry is left exactly as it was by an entry that is not bound. -/
theorem plug_of_not_isBound (h : r.isBound e = false) : e.plug r = r := by
  cases plugs e r with
  | idle pattern same => exact same
  | binds route pools makes bound =>
    have taken : r.isFree route.pattern = false := by rwa [isBound, makes.pattern] at h
    rw [bound, after_bind, taken]
    rfl

/-- An entry that is bound adds one route with its pools. -/
theorem plug_of_isBound (h : r.isBound e = true) :
    ∃ route pools, e.Makes r.files route pools ∧ e.plug r = r.add route pools := by
  cases plugs e r with
  | idle pattern same =>
    rw [isBound, pattern] at h
    cases h
  | binds route pools makes bound =>
    have free : r.isFree route.pattern = true := by rwa [isBound, makes.pattern] at h
    rw [after_bind, if_pos free] at bound
    exact ⟨route, pools, makes, bound⟩

/-- Nothing is bound to a frozen registry. -/
lemma isBound_frozen (frozen : r.table.isSome) : r.isBound e = false := by
  have none_free (p : Pattern) : r.isFree p = false := by
    rw [isFree, Option.isNone_eq_false_iff.mpr frozen, Bool.false_and]
  cases h : e.pattern? r.files with
  | none => rw [isBound, h]; rfl
  | some p => rw [isBound, h, Option.any_some, none_free]

/-! ### Pruned entries -/

lemma pattern?_pruned (e : Entry) (files : FileTree) : e.pruned.pattern? files = e.pattern? files := by
  cases e with
  | service p => rfl
  | proxy p =>
    cases p with
    | none => rfl
    | some p =>
      change (if p.pruned.hosts.isEmpty then none else p.pruned.location.bind _) = _
      rw [Config.Proxy.hosts_pruned]
      rfl
  | mount m => rfl

lemma isBound_pruned (e : Entry) (r : Registry) : r.isBound e.pruned = r.isBound e := by
  rw [isBound, pattern?_pruned, isBound]

/-- Of the backends only those count that are hosts. -/
lemma after_registerProxy {location name : String} {p : Config.Proxy} {uris more : List String}
    (same : (hostsOf uris p.maxConnectionsPerHost).1 = (hostsOf more p.maxConnectionsPerHost).1) :
    r.after (r.registerProxy location name uris p) =
      r.after (r.registerProxy location name more p) := by
  unfold registerProxy
  cases parsePattern location .below with
  | error e => rfl
  | ok pattern =>
    dsimp only
    rw [same]
    by_cases empty : (hostsOf more p.maxConnectionsPerHost).1.isEmpty = true
    · rw [if_pos empty, if_pos empty]
      rfl
    · rw [if_neg empty, if_neg empty]
      exact (after_alerts _ _).trans (after_alerts _ _).symm

/-- Without its invalid backends a proxy is bound as with them. -/
lemma plug_pruned (e : Entry) (r : Registry) : e.pruned.plug r = e.plug r := by
  cases e with
  | service p => rfl
  | proxy p =>
    cases p with
    | none => rfl
    | some p =>
      change (Entry.proxy (some p.pruned)).plug r = _
      rw [plug_proxy, plug_proxy]
      have same_location : p.pruned.location = p.location := rfl
      have only_valid : p.pruned.pass = p.pass.map _ := rfl
      unfold bindProxy
      rw [same_location, only_valid]
      cases p.location with
      | none => rfl
      | some location =>
        cases passed : p.pass with
        | none => rfl
        | some pass =>
          have hosts : p.pruned.hosts = p.hosts := p.hosts_pruned
          rw [Config.Proxy.hosts, Config.Proxy.hosts, Config.Proxy.uris, Config.Proxy.uris, only_valid,
            passed] at hosts
          simp only [Option.map_some, after_alerts]
          exact after_registerProxy hosts
  | mount m => rfl

/-! ### Lists of entries -/

/-- Plug entries one after the other. -/
def plugEach (r : Registry) (entries : List Entry) : Registry :=
  entries.foldl (fun r e => e.plug r) r

/-- The entries that are bound when it is their turn, each without its invalid backends. -/
def boundAmong (r : Registry) : List Entry → List Entry
  | [] => []
  | e :: rest =>
    if r.isBound e then e.pruned :: (e.plug r).boundAmong rest else r.boundAmong rest

/-- Plug services, proxies and directories. -/
def plugged (r : Registry) (services : List (Plugin Service)) (proxies : List (Option Config.Proxy))
    (mounts : List Config.StaticMount) : Registry :=
  (((r.plugServices services).1.plugProxies proxies).1.plugStatics mounts).1

/-- All that a registry is plugged with, in order. -/
def entriesOf (services : List (Plugin Service)) (proxies : List (Option Config.Proxy))
    (mounts : List Config.StaticMount) : List Entry :=
  services.map .service ++ proxies.map .proxy ++ mounts.map .mount

variable {services : List (Plugin Service)} {proxies : List (Option Config.Proxy)}
  {mounts : List Config.StaticMount} {list : List Entry}

lemma plugAll_fst {α : Type} (plug : Registry → α → Registry × List Event) (r : Registry)
    (entries : List α) : (plugAll plug r entries).1 = entries.foldl (fun r e => (plug r e).1) r := by
  unfold plugAll
  generalize ([] : List Event) = alerts
  induction entries generalizing r alerts with
  | nil => rfl
  | cons e rest ih => exact ih _ _

lemma plugged_eq (r : Registry) :
    r.plugged services proxies mounts = r.plugEach (entriesOf services proxies mounts) := by
  unfold plugged plugEach entriesOf plugServices plugProxies plugStatics
  simp only [plugAll_fst, List.foldl_append, List.foldl_map]
  rfl

/-- Entries that are not bound can be left out, and so can invalid backends. -/
theorem plugEach_boundAmong (list : List Entry) (r : Registry) :
    r.plugEach (r.boundAmong list) = r.plugEach list := by
  induction list generalizing r with
  | nil => rfl
  | cons e rest ih =>
    unfold boundAmong
    cases h : r.isBound e with
    | true =>
      change (e.pruned.plug r).plugEach _ = (e.plug r).plugEach rest
      rw [plug_pruned]
      exact ih _
    | false =>
      change r.plugEach (r.boundAmong rest) = (e.plug r).plugEach rest
      rw [plug_of_not_isBound h]
      exact ih r

lemma pruned_pruned (e : Entry) : e.pruned.pruned = e.pruned := by
  cases e with
  | service p => rfl
  | proxy p =>
    cases p with
    | none => rfl
    | some p => exact congrArg (Entry.proxy ∘ some) p.pruned_pruned
  | mount m => rfl

/-- By themselves all of these entries are bound. -/
theorem boundAmong_boundAmong (list : List Entry) (r : Registry) :
    r.boundAmong (r.boundAmong list) = r.boundAmong list := by
  induction list generalizing r with
  | nil => rfl
  | cons e rest ih =>
    cases h : r.isBound e with
    | true =>
      have first : r.boundAmong (e :: rest) = e.pruned :: (e.plug r).boundAmong rest := by
        rw [boundAmong, if_pos h]
      rw [first, boundAmong, isBound_pruned, if_pos h, pruned_pruned, plug_pruned, ih]
    | false =>
      have first : r.boundAmong (e :: rest) = r.boundAmong rest := by
        rw [boundAmong, h]
        rfl
      rw [first]
      exact ih r

lemma plugEach_frozen (frozen : r.table.isSome) (list : List Entry) : r.plugEach list = r := by
  induction list with
  | nil => rfl
  | cons e rest ih =>
    change (e.plug r).plugEach rest = r
    rw [plug_of_not_isBound (isBound_frozen frozen)]
    exact ih

lemma isSome_table_freeze (r : Registry) : r.freeze.1.table.isSome := by
  rw [table_freeze]
  rfl

/-- Plugging services, proxies and directories comes to plugging those of them that are bound, with no
backends but the valid ones: registry, table and pools are the same. An entry is bound if it has all
it needs and its pattern is free; it then adds its route and its hosts, and any other entry does
nothing. Once there is a table it stays. -/
theorem plugged_isolated (r : Registry) (services : List (Plugin Service))
    (proxies : List (Option Config.Proxy)) (mounts : List Config.StaticMount) :
    let full := r.plugged services proxies mounts
    let bound := r.boundAmong (entriesOf services proxies mounts)
    let clean := r.plugEach bound
    (r.boundAmong bound = bound ∧ full = clean) ∧
      (∀ path, full.freeze.2.1.resolve path = clean.freeze.2.1.resolve path) ∧
      (∀ (s : Registry) (e : Entry),
        if s.isBound e then
          ∃ route pools, e.Makes s.files route pools ∧ e.plug s = s.add route pools
        else e.plug s = s) ∧
      (∀ more others directories,
        full.freeze.1.plugged more others directories = full.freeze.1) ∧
      (∀ pattern policy pipeline kind secured name,
        full.freeze.1.register pattern policy pipeline kind secured name = refuse .frozen) ∧
      full.freeze.1.freeze = (full.freeze.1, full.freeze.2.1, []) := by
  intro full bound clean
  have same : full = clean := by
    rw [show full = r.plugEach _ from plugged_eq r]
    exact (plugEach_boundAmong _ r).symm
  have frozen := isSome_table_freeze full
  refine ⟨⟨boundAmong_boundAmong _ r, same⟩, fun path => by rw [same], fun s e => ?_,
    fun more others directories => ?_, fun pattern policy pipeline kind secured name => ?_, ?_⟩
  · split
    · next h => exact plug_of_isBound h
    · next h => exact plug_of_not_isBound (Bool.eq_false_iff.mpr h)
  · rw [plugged_eq, plugEach_frozen frozen]
  · rw [register, if_pos frozen]
  · conv_lhs => rw [freeze, table_freeze]

/-- Two proxies, the second for a place that is taken, and one without a host among its backends. -/
example :
    let open_ : Registry := { assembly := {} }
    let proxy (location : String) (uris : List String) : Entry :=
      .proxy (some { location := some location, pass := some (.many (uris.map .string)) })
    (open_.boundAmong [.proxy none, proxy "/api" ["ftp://a", "http://b:80"],
      proxy "/x" ["ftp://a"], proxy "/api/" ["http://c"]]).map (·.hosts.map (·.authority)) =
      [["b:80"]] := by decide +kernel

end Registry

/-- A configured gateway routes by what is bound of its services, proxies and directories. -/
theorem PluginSet.routes_of_bound (p : PluginSet) (c : Config) (files : FileTree) :
    let start : Registry := { assembly := (p.assembly c).1, files }
    let clean := start.plugEach
      (start.boundAmong (Registry.entriesOf p.services c.proxyEntries c.mounts))
    (p.routes c files).table = clean.freeze.2.1 ∧ (p.routes c files).pools = clean.freeze.1.pools := by
  intro start clean
  have same : start.plugged p.services c.proxyEntries c.mounts = clean := by
    rw [Registry.plugged_eq]
    exact (Registry.plugEach_boundAmong _ start).symm
  rw [← same]
  exact ⟨rfl, rfl⟩

end Gateway
