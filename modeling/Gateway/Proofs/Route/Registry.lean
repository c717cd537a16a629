import Gateway.Lifecycle.Routes
import Gateway.Proofs.Route.Path

/-! Registries as they come about: what a registration can do, and what every route of a table is
made of. -/
namespace Gateway

/-- What a route attaches to its exchanges. -/
def Route.info (route : Route) : RouteInfo :=
  ⟨route.kind, route.pattern.text, route.name, route.secured⟩

/-- The route has the pipeline of its kind. Proxies are secured, directories are not, and services
are as they were registered. -/
inductive Route.Assembled (a : Assembly) (route : Route) : Prop where
  | service (p : Plugin Service) (kind : route.kind = .service) (secured : route.secured = p.secured)
      (pipeline : route.pipeline =
        a.service route.info p.behaviour.stage p.behaviour.requiresContent)
  | proxy (p : Proxy) (kind : route.kind = .proxy) (secured : route.secured = true)
      (pipeline : route.pipeline = a.proxy route.info p.stage)
  | static (s : Site) (kind : route.kind = .static) (secured : route.secured = false)
      (pipeline : route.pipeline = a.static route.info s.stage)

/-- A route as registries bind them. -/
structure Route.Proper (a : Assembly) (route : Route) : Prop where
  assembled : route.Assembled a
  rooted : route.pattern.IsRooted

/-- All routes of a table are put together from one assembly and stand where they belong. -/
structure RoutingTable.Sound (a : Assembly) (t : RoutingTable) : Prop where
  exact_proper : ∀ route ∈ t.exact, route.Proper a
  below_proper : ∀ route ∈ t.below, route.Proper a
  below_policy : ∀ route ∈ t.below, route.pattern.policy = .below

namespace RoutingTable
variable {a : Assembly} {t : RoutingTable} {exact below : List Route} {route : Route} {path : String}

lemma mem_below_ofRoutes {p : Pipeline} :
    route ∈ (ofRoutes exact below p).below ↔ route ∈ below := by
  rw [ofRoutes, List.mem_mergeSort]

/-- A path is resolved to a route for exactly it, or to one above it. -/
lemma resolve_some (h : t.resolve path = some route) :
    (route ∈ t.exact ∧ route.pattern.text = normalizePath path) ∨
      (route ∈ t.below ∧ route.pattern.covers path = true) := by
  unfold resolve at h
  split at h
  · next found hf =>
    obtain rfl := Option.some.inj h
    have text := List.find?_some hf
    exact .inl ⟨List.mem_of_find?_eq_some hf, of_decide_eq_true text⟩
  · have covers := List.find?_some h
    exact .inr ⟨List.mem_of_find?_eq_some h, covers⟩

lemma Sound.proper (ht : t.Sound a) (h : t.resolve path = some route) : route.Proper a := by
  rcases resolve_some h with ⟨hm, -⟩ | ⟨hm, -⟩
  · exact ht.exact_proper route hm
  · exact ht.below_proper route hm

end RoutingTable

namespace Registry

/-- The registries that services, proxies and directories make, frozen or not. -/
inductive Built (a : Assembly) (files : FileTree) : Registry → Prop where
  | empty : Built a files { assembly := a, files }
  | service {r s : Registry} (p : Plugin Service) (h : Built a files r)
      (ok : (r.registerService p).1 = .ok s) : Built a files s
  | proxy {r s : Registry} (location name : String) (backends : List String)
      (options : Config.Proxy) (h : Built a files r)
      (ok : (r.registerProxy location name backends options).1 = .ok s) : Built a files s
  | static {r s : Registry} (mount directory welcomeFile : String) (h : Built a files r)
      (ok : (r.registerStatic mount directory welcomeFile).1 = .ok s) : Built a files s
  | freeze {r : Registry} (h : Built a files r) : Built a files r.freeze.1

variable {a : Assembly} {files : FileTree} {r s : Registry} {route : Route} {pools : List Pool}

/-- A route of the list stands for the same pattern. -/
def Holds (routes : List Route) (route : Route) : Prop :=
  ∃ other ∈ routes, other.pattern.text = route.pattern.text

lemma any_iff_holds {routes : List Route} :
    (routes.any fun other => other.pattern.text = route.pattern.text) = true ↔
      Holds routes route := by
  simp only [List.any_eq_true, decide_eq_true_eq, Holds]

/-- What binding a route to an open registry can do: the route is added at the end of its list
unless its pattern is taken there, which is an error for exact routes only. -/
theorem bind_cases (route : Route) (pools : List Pool) (open_ : r.table = none) :
    (route.pattern.policy = .exact ∧ Holds r.exact route ∧
        r.bind route pools = refuse (.duplicate route.pattern.text)) ∨
      (route.pattern.policy = .exact ∧ ¬Holds r.exact route ∧
        r.bind route pools =
          (.ok { r with exact := r.exact ++ [route], pools := r.pools ++ pools }, [])) ∨
      (route.pattern.policy = .below ∧ Holds r.below route ∧
        r.bind route pools =
          (.ok r, [.warning "Prefix already bound, later registration is shadowed"])) ∨
      (route.pattern.policy = .below ∧ ¬Holds r.below route ∧
        r.bind route pools =
          (.ok { r with below := r.below ++ [route], pools := r.pools ++ pools }, [])) := by
  unfold bind
  dsimp only
  rw [open_, if_neg (by simp)]
  split
  · next policy =>
    by_cases taken : Holds r.exact route
    · rw [if_pos (any_iff_holds.mpr taken)]
      exact .inl ⟨policy, taken, rfl⟩
    · rw [if_neg (mt any_iff_holds.mp taken)]
      exact .inr (.inl ⟨policy, taken, rfl⟩)
  · next policy =>
    by_cases taken : Holds r.below route
    · rw [if_pos (any_iff_holds.mpr taken)]
      exact .inr (.inr (.inl ⟨policy, taken, rfl⟩))
    · rw [if_neg (mt any_iff_holds.mp taken)]
      exact .inr (.inr (.inr ⟨policy, taken, rfl⟩))

lemma bind_frozen (h : r.table.isSome) : r.bind route pools = refuse .frozen := by
  rw [bind, if_pos h]

/-- What is kept of a registry however it was built. -/
structure Sound (a : Assembly) (r : Registry) : Prop where
  assembly : r.assembly = a
  exact_proper : ∀ route ∈ r.exact, route.Proper a
  below_proper : ∀ route ∈ r.below, route.Proper a
  below_policy : ∀ route ∈ r.below, route.pattern.policy = .below
  table : ∀ t, r.table = some t → t.Sound a

lemma Sound.bind (h : Sound a r) (hr : route.Proper a)
    (ok : (r.bind route pools).1 = .ok s) : Sound a s := by
  cases ht : r.table with
  | some t =>
    rw [bind_frozen (by rw [ht]; rfl)] at ok
    cases ok
  | none =>
    rcases bind_cases route pools ht with
      ⟨-, -, e⟩ | ⟨-, -, e⟩ | ⟨-, -, e⟩ | ⟨policy, -, e⟩
    all_goals
      rw [e] at ok
      cases ok
    · refine { h with exact_proper := fun x hx => ?_ }
      rcases List.mem_append.mp hx with hx | hx
      · exact h.exact_proper x hx
      · rwa [List.mem_singleton.mp hx]
    · exact h
    · refine { h with below_proper := fun x hx => ?_, below_policy := fun x hx => ?_ }
      · rcases List.mem_append.mp hx with hx | hx
        · exact h.below_proper x hx
        · rwa [List.mem_singleton.mp hx]
      · rcases List.mem_append.mp hx with hx | hx
        · exact h.below_policy x hx
        · rwa [List.mem_singleton.mp hx]

lemma isRooted_of_parsePattern {path : String} {policy : MatchPolicy} {pattern : Pattern}
    (parsed : parsePattern path policy = .ok pattern) : pattern.IsRooted := by
  unfold parsePattern at parsed
  split at parsed
  · next p hp =>
    obtain rfl := Except.ok.inj parsed
    exact Pattern.isRooted_of_parse hp
  · cases parsed

/-- What a registration that is not refused has bound: a route with the pools it needs. -/
inductive Binds (r : Registry) : Route → List Pool → Prop where
  | service {pattern : Pattern} (p : Plugin Service) (rooted : pattern.IsRooted) :
      Binds r ⟨pattern, p.name, .service, p.secured, r.assembly.service
        ⟨.service, pattern.text, p.name, p.secured⟩ p.behaviour.stage p.behaviour.requiresContent⟩ []
  | proxy {pattern : Pattern} (name : String) (backends : List String) (options : Config.Proxy)
      (rooted : pattern.IsRooted) :
      Binds r ⟨⟨pattern.text, .below⟩, name, .proxy, true, r.assembly.proxy
        ⟨.proxy, pattern.text, name, true⟩ (Proxy.stage ⟨name, r.pools.length, options.setsHost⟩)⟩
        [{ name, hosts := (hostsOf backends options.maxConnectionsPerHost).1
           options := options.poolOptions }]
  | static {pattern : Pattern} (directory : String) (site : Site) (rooted : pattern.IsRooted) :
      Binds r ⟨⟨pattern.text, .below⟩, directory, .static, false, r.assembly.static
        ⟨.static, pattern.text, directory, false⟩ site.stage⟩ []

lemma binds_of_registerService {p : Plugin Service} (ok : (r.registerService p).1 = .ok s) :
    s = r ∨ ∃ route, route.kind = .service ∧ r.Binds route [] ∧ (r.bind route []).1 = .ok s := by
  unfold registerService at ok
  split at ok
  · cases ok
    exact .inl rfl
  · split at ok
    · cases ok
    · split at ok
      · cases ok
      · next parsed => exact .inr ⟨_, rfl, .service p (isRooted_of_parsePattern parsed), ok⟩

lemma binds_of_registerProxy {location name : String} {backends : List String}
    {options : Config.Proxy} (ok : (r.registerProxy location name backends options).1 = .ok s) :
    ∃ route pools, route.kind = .proxy ∧ r.Binds route pools ∧
      (r.bind route pools).1 = .ok s := by
  unfold registerProxy at ok
  split at ok
  · cases ok
  · next parsed =>
    dsimp only at ok
    split at ok
    · cases ok
    · exact ⟨_, _, rfl, .proxy name backends options (isRooted_of_parsePattern parsed), ok⟩

lemma binds_of_registerStatic {mount directory welcomeFile : String}
    (ok : (r.registerStatic mount directory welcomeFile).1 = .ok s) :
    ∃ route, route.kind = .static ∧ r.Binds route [] ∧ (r.bind route []).1 = .ok s := by
  unfold registerStatic at ok
  split at ok
  · cases ok
  · next pattern parsed =>
    split at ok
    · cases ok
    · next root _ =>
      let site := Site.ofDirectory r.files root pattern.text welcomeFile
      exact ⟨_, rfl, .static directory site (isRooted_of_parsePattern parsed), ok⟩

/-- What binding maintains and freezing does holds of every registry. -/
theorem Built.induct {P : Registry → Prop} (h : Built a files r) (empty : P { assembly := a, files })
    (bind : ∀ r s route pools, P r → r.Binds route pools → (r.bind route pools).1 = .ok s → P s)
    (freeze : ∀ r, P r → P r.freeze.1) : P r := by
  induction h with
  | empty => exact empty
  | service p h ok ih =>
    rcases binds_of_registerService ok with rfl | ⟨route, -, binds, ok⟩
    · exact ih
    · exact bind _ _ _ _ ih binds ok
  | proxy location name backends options h ok ih =>
    obtain ⟨route, pools, -, binds, ok⟩ := binds_of_registerProxy ok
    exact bind _ _ _ _ ih binds ok
  | static mount directory welcomeFile h ok ih =>
    obtain ⟨route, -, binds, ok⟩ := binds_of_registerStatic ok
    exact bind _ _ _ _ ih binds ok
  | freeze h ih => exact freeze _ ih

lemma Binds.proper (h : r.Binds route pools) : route.Proper r.assembly := by
  cases h with
  | service p rooted => exact ⟨.service p rfl rfl rfl, rooted⟩
  | proxy name backends options rooted =>
    exact ⟨.proxy ⟨name, r.pools.length, options.setsHost⟩ rfl rfl rfl, rooted⟩
  | static directory site rooted => exact ⟨.static site rfl rfl rfl, rooted⟩

lemma Sound.freeze (h : Sound a r) : Sound a r.freeze.1 := by
  unfold Registry.freeze
  split
  · exact h
  · refine { h with table := fun t ht => ?_ }
    obtain rfl := Option.some.inj ht
    exact {
      exact_proper := h.exact_proper
      below_proper := fun x hx => h.below_proper x (RoutingTable.mem_below_ofRoutes.mp hx)
      below_policy := fun x hx => h.below_policy x (RoutingTable.mem_below_ofRoutes.mp hx) }

theorem Built.sound (h : Built a files r) : Sound a r := by
  refine h.induct ⟨rfl, nofun, nofun, nofun, nofun⟩ (fun r s route pools hr binds ok => ?_)
    fun _ hr => hr.freeze
  have proper := binds.proper
  rw [hr.assembly] at proper
  exact hr.bind proper ok

/-- What is bound is kept, and what is refused changes nothing. -/
lemma keep_induct {P : Registry → Prop} {b : Binding} (refusal : Event) (h : P r)
    (hb : ∀ s, b.1 = .ok s → P s) : P (r.keep refusal b).1 := by
  obtain ⟨outcome, alerts⟩ := b
  cases outcome with
  | ok s => exact hb s rfl
  | error e => exact h

lemma plugAll_induct {P : Registry → Prop} {α : Type} {plug : Registry → α → Registry × List Event}
    (entries : List α) (step : ∀ r, ∀ e ∈ entries, P r → P (plug r e).1) (h : P r) :
    P (plugAll plug r entries).1 := by
  unfold Registry.plugAll
  generalize ([] : List Event) = alerts
  induction entries generalizing r alerts with
  | nil => exact h
  | cons e rest ih =>
    refine ih (fun r e he => step r e (List.mem_cons_of_mem _ he)) ?_ _
    exact step r e List.mem_cons_self h

/-- A configured proxy is registered under its location with the addresses that are texts. -/
lemma exists_of_bindProxy {p : Config.Proxy} (ok : (r.bindProxy p).1 = .ok s) :
    ∃ location name backends, (r.registerProxy location name backends p).1 = .ok s := by
  unfold Registry.bindProxy at ok
  split at ok
  · cases ok
  · cases ok
  · exact ⟨_, _, _, ok⟩

lemma Built.plugServices (h : Built a files r) (services : List (Plugin Service)) :
    Built a files (r.plugServices services).1 :=
  plugAll_induct services (fun _ p _ hr => keep_induct _ hr fun _ ok => .service p hr ok) h

lemma Built.plugProxies (h : Built a files r) (entries : List (Option Config.Proxy)) :
    Built a files (r.plugProxies entries).1 := by
  refine plugAll_induct entries (fun r e _ hr => ?_) h
  cases e with
  | none => exact hr
  | some p =>
    refine keep_induct _ hr fun _ ok => ?_
    obtain ⟨location, name, backends, ok⟩ := exists_of_bindProxy ok
    exact .proxy location name backends p hr ok

lemma Built.plugStatics (h : Built a files r) (mounts : List Config.StaticMount) :
    Built a files (r.plugStatics mounts).1 :=
  plugAll_induct mounts (fun _ _ _ hr => keep_induct _ hr fun _ ok => .static _ _ _ hr ok) h

lemma table_freeze (r : Registry) : r.freeze.1.table = some r.freeze.2.1 := by
  unfold freeze
  split
  · next t ht => exact ht
  · rfl

end Registry

/-- The table of a configured gateway is the table of a registry. -/
theorem PluginSet.routes_built (p : PluginSet) (c : Config) (files : FileTree) :
    ∃ r, Registry.Built (p.assembly c).1 files r ∧ r.table = some (p.routes c files).table := by
  have start : Registry.Built (p.assembly c).1 files { assembly := (p.assembly c).1, files } := .empty
  have services := start.plugServices p.services
  have statics := (services.plugProxies c.proxyEntries).plugStatics c.mounts
  exact ⟨_, statics.freeze, Registry.table_freeze _⟩

end Gateway
