import Gateway.Proofs.Route.Proxies
import Gateway.Proofs.Route.Relative

/-! The directories among the routes of a registry. Each is one that was found in the files, and is served
from the route's own pattern. -/
namespace Gateway

namespace Route

/-- The route serves the directory `root` below its pattern. -/
def Serves (a : Assembly) (files : FileTree) (root : List String) (welcomeFile : String) (route : Route) :
    Prop :=
  route.pipeline = a.static route.info (Site.ofDirectory files root route.pattern.text welcomeFile).stage

/-- The route stands for everything below its pattern and serves the directory that it is named for. -/
structure Mounted (a : Assembly) (files : FileTree) (route : Route) : Prop where
  policy : route.pattern.policy = .below
  trimmed : normalizePath route.pattern.text = route.pattern.text
  serves : ∃ root welcomeFile, files.directory? route.name = some root ∧
    route.Serves a files root welcomeFile

end Route

namespace Registry
variable {a : Assembly} {files : FileTree} {r s : Registry} {route other : Route} {pools : List Pool}

/-- The route is among those of the registry, or in its table. -/
def Has (r : Registry) (route : Route) : Prop :=
  (route ∈ r.exact ∨ route ∈ r.below) ∨ ∃ t, r.table = some t ∧ (route ∈ t.exact ∨ route ∈ t.below)

/-- Binding adds the one route at most, and leaves what routes are made of. -/
lemma of_bind (ok : (r.bind route pools).1 = .ok s) :
    s.assembly = r.assembly ∧ s.files = r.files ∧ ∀ other, s.Has other → r.Has other ∨ other = route := by
  cases ht : r.table with
  | some t =>
    rw [bind_frozen (by rw [ht]; rfl)] at ok
    cases ok
  | none =>
    rcases bind_cases route pools ht with ⟨-, -, e⟩ | ⟨-, -, e⟩ | ⟨-, -, e⟩ | ⟨-, -, e⟩
    all_goals
      rw [e] at ok
      cases ok
    · refine ⟨rfl, rfl, fun other has => ?_⟩
      rcases has with (mem | mem) | table
      · exact (List.mem_append.mp mem).imp (fun h => .inl (.inl h)) List.mem_singleton.mp
      · exact .inl (.inl (.inr mem))
      · exact .inl (.inr table)
    · exact ⟨rfl, rfl, fun other has => .inl has⟩
    · refine ⟨rfl, rfl, fun other has => ?_⟩
      rcases has with (mem | mem) | table
      · exact .inl (.inl (.inl mem))
      · exact (List.mem_append.mp mem).imp (fun h => .inl (.inr h)) List.mem_singleton.mp
      · exact .inl (.inr table)

/-- Freezing makes a table of the routes that are there. -/
lemma of_freeze (r : Registry) : r.freeze.1.assembly = r.assembly ∧ r.freeze.1.files = r.files ∧
    ∀ other, r.freeze.1.Has other → r.Has other := by
  unfold Registry.freeze
  split
  · exact ⟨rfl, rfl, fun _ => id⟩
  · refine ⟨rfl, rfl, fun other has => .inl ?_⟩
    rcases has with mem | ⟨t, ht, mem⟩
    · exact mem
    · obtain rfl := Option.some.inj ht
      exact mem.imp id RoutingTable.mem_below_ofRoutes.mp

/-- A directory that is registered is found first, and its route serves it from the trimmed pattern. -/
lemma mounted_of_registerStatic {mount directory welcomeFile : String}
    (ok : (r.registerStatic mount directory welcomeFile).1 = .ok s) :
    ∃ route, route.Mounted r.assembly r.files ∧ (r.bind route []).1 = .ok s := by
  unfold registerStatic at ok
  split at ok
  · cases ok
  · next pattern parsed =>
    split at ok
    · cases ok
    · next root found =>
      have trimmed : normalizePath pattern.text = pattern.text := by
        unfold parsePattern Pattern.parse? at parsed
        split at parsed
        · next p hp =>
          obtain rfl := Except.ok.inj parsed
          split at hp
          · obtain rfl := Option.some.inj hp
            exact normalizePath_normalizePath mount
          · cases hp
        · cases parsed
      let info : RouteInfo := ⟨.static, pattern.text, directory, false⟩
      let site := Site.ofDirectory r.files root pattern.text welcomeFile
      refine ⟨⟨⟨pattern.text, .below⟩, directory, .static, false, r.assembly.static info site.stage⟩,
        ⟨rfl, trimmed, root, welcomeFile, found, rfl⟩, ok⟩

/-- All directories of the registry are mounted where their routes stand. -/
structure Mounting (a : Assembly) (files : FileTree) (r : Registry) : Prop where
  assembly : r.assembly = a
  tree : r.files = files
  mounted : ∀ route, r.Has route → route.kind = .static → route.Mounted a files

lemma Mounting.bind (h : Mounting a files r) (new : route.kind = .static → route.Mounted a files)
    (ok : (r.bind route pools).1 = .ok s) : Mounting a files s := by
  obtain ⟨assembly, tree, routes⟩ := of_bind ok
  refine ⟨assembly.trans h.assembly, tree.trans h.tree, fun other has kind => ?_⟩
  rcases routes other has with old | rfl
  · exact h.mounted other old kind
  · exact new kind

theorem Built.mounting (h : Built a files r) : Mounting a files r := by
  induction h with
  | empty => exact ⟨rfl, rfl, fun route has => by simp [Has] at has⟩
  | service p h ok ih =>
    rcases binds_of_registerService ok with rfl | ⟨route, kind, -, ok⟩
    · exact ih
    · exact ih.bind (fun is => absurd (kind.symm.trans is) nofun) ok
  | proxy location name backends options h ok ih =>
    obtain ⟨route, pools, kind, -, ok⟩ := binds_of_registerProxy ok
    exact ih.bind (fun is => absurd (kind.symm.trans is) nofun) ok
  | static mount directory welcomeFile h ok ih =>
    obtain ⟨route, mounted, ok⟩ := mounted_of_registerStatic ok
    rw [ih.assembly, ih.tree] at mounted
    exact ih.bind (fun _ => mounted) ok
  | @freeze r h ih =>
    obtain ⟨assembly, tree, routes⟩ := of_freeze r
    exact ⟨assembly.trans ih.assembly, tree.trans ih.tree, fun route has => ih.mounted route (routes route has)⟩

/-- A path that is resolved to a directory is below its pattern. -/
theorem Built.mounted_of_resolve {t : RoutingTable} {path : String} (h : Built a files r)
    (ht : r.table = some t) (hx : t.resolve path = some route) (kind : route.kind = .static) :
    route.Mounted a files ∧ Pattern.IsAbove route.pattern.text path := by
  rcases RoutingTable.resolve_some hx with ⟨member, -⟩ | ⟨member, covers⟩
  · have mounted := h.mounting.mounted route (.inr ⟨t, ht, .inl member⟩) kind
    have policy := mounted.policy
    rw [(h.traced.table t ht).exact_policy route member] at policy
    cases policy
  · have mounted := h.mounting.mounted route (.inr ⟨t, ht, .inr member⟩) kind
    exact ⟨mounted, (Pattern.covers_below_iff mounted.policy).mp covers⟩

end Registry

/-- The route of a directory. -/
def siteRoute (a : Assembly) (files : FileTree) (mount welcomeFile : String) : Route :=
  ⟨⟨mount, .below⟩, "site", .static, false,
    a.static ⟨.static, mount, "site", false⟩ (Site.ofDirectory files ["site"] mount welcomeFile).stage⟩

/-- A table with a directory for all that it has. -/
def siteTable (a : Assembly) (files : FileTree) (mount welcomeFile : String) : RoutingTable :=
  .ofRoutes [] [siteRoute a files mount welcomeFile] a.notManaged

section Site
variable {files : FileTree} {mount : String} (a : Assembly) (welcomeFile : String)

lemma site_built (found : files.directory? "site" = some ["site"])
    (parsed : Registry.parsePattern mount .below = .ok ⟨mount, .below⟩) :
    Registry.Built a files
      { assembly := a
        files
        below := [siteRoute a files mount welcomeFile]
        table := some (siteTable a files mount welcomeFile) } := by
  have ok : (Registry.registerStatic { assembly := a, files } mount "site" welcomeFile).1 =
      .ok { assembly := a, files, below := [siteRoute a files mount welcomeFile] } := by
    rw [Registry.registerStatic, parsed]
    dsimp only
    rw [found]
    rfl
  exact (Registry.Built.static mount "site" welcomeFile .empty ok).freeze

lemma siteTable_resolve {path : String} (covers : Pattern.covers ⟨mount, .below⟩ path = true) :
    (siteTable a files mount welcomeFile).resolve path = some (siteRoute a files mount welcomeFile) := by
  rw [RoutingTable.resolve, siteTable, RoutingTable.ofRoutes, List.find?_nil, List.mergeSort_singleton,
    List.find?_cons_of_pos]
  exact covers

end Site
end Gateway
