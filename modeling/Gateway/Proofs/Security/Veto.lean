import Gateway.Proofs.Exchange.Query
import Gateway.Proofs.Route.Path
import Gateway.Proofs.Security.Access

/-! Vetoes on the path of a route. However a path is spelled that is resolved to the route, a veto
on the route's own path forbids its methods there. -/
namespace Gateway

namespace Exchange
variable {x : Exchange} {m : Method} {u : Uri} {info : Option RouteInfo}

/-- The exchange is for the method, for the target up to its query, and for the route. -/
structure IsFor (x : Exchange) (m : Method) (u : Uri) (info : Option RouteInfo) : Prop where
  method : x.method = m
  target : x.uri.target = u.target
  info : x.info = info

lemma IsFor.path (h : x.IsFor m u info) : x.path = u.path := Uri.path_of_target h.target

lemma lasting_isFor (hu : u.IsRead) : Lasting (IsFor · m u info) where
  inbound x y h hx := ⟨(congrArg Exchange.method h).trans hx.method,
    (congrArg (·.uri.target) h).trans hx.target, (congrArg Exchange.info h).trans hx.info⟩
  rebuild x y h hx := by
    have target := (target_of_rebuildQuery (hu.congr hx.target) h).trans hx.target
    rw [rebuildQuery_eq h]
    exact ⟨hx.method, target, hx.info⟩

end Exchange

namespace Authorizer

/-- A method that is served is found in a list by its name in any letter case. -/
lemma mem_parseMethods {m : Method} {names : List String} {n : String} (hm : m ∈ Method.served)
    (hn : n ∈ names) (case : n.toList.map Char.toUpper = m.name.toList) :
    m ∈ (parseMethods names).1 := by
  have served : ∀ m ∈ Method.served, Method.parse? m.name = some m := by decide
  refine List.mem_filterMap.mpr ⟨n, hn, ?_⟩
  rw [method?, case, String.ofList_toList]
  exact served m hm

lemma veto_forbids {entry : VetoEntry} {x : Exchange} (slash : entry.path.toList.head? = some '/')
    (above : Pattern.IsAbove (normalizePath entry.path) x.path)
    (method : x.method ∈ (parseMethods entry.methods).1) : (veto entry).1.isAllowed x = false := by
  have pattern : Pattern.parse? entry.path .below = some ⟨normalizePath entry.path, .below⟩ :=
    if_pos slash
  have covers := (Pattern.covers_below_iff (p := ⟨normalizePath entry.path, .below⟩) rfl).mpr above
  simp [veto, parsePath, pattern, covers, method]

end Authorizer

namespace RoutingTable
variable {a : Assembly} {t : RoutingTable} {route : Route} {path : String}

/-- The pattern of a route stands above every path that is resolved to the route, but for the empty
path. -/
lemma Sound.isAbove (ht : t.Sound a) (h : t.resolve path = some route) (hp : path ≠ "") :
    Pattern.IsAbove route.pattern.text path := by
  rcases resolve_some h with ⟨-, text⟩ | ⟨hm, covers⟩
  · exact Pattern.isAbove_of_normalizePath text.symm hp
  · exact (Pattern.covers_below_iff (ht.below_policy route hm)).mp covers

end RoutingTable

variable {a : Assembly} {files : FileTree} {r : Registry} {table : RoutingTable} {route : Route}
  {mechanisms : List (Plugin Mechanism)} {authorizers : List (Plugin Authorizer)}
  {tokens : Option (Plugin TokenManager)}

/-- An authority alone has no path to put a query behind, so its request does not get far. -/
lemma Assembly.path_ne_empty {p : Pipeline} {info : RouteInfo} {more : List Stage} {last : Stage}
    {x z : Exchange} {t : Trace} (stages : p.stages = a.securedHead info ++ more ++ [last])
    (interceptors : ∀ i ∈ a.interceptors.atPoint .beforeAuth,
      i.handle.Maintains (Exchange.IsFor · x.method x.uri (some info)))
    (read : x.uri.IsRead) (h : p.HandsLast x t z) : x.path ≠ "" := by
  have before := beforeSecurity_maintains (Exchange.lasting_isFor read) interceptors
  have start : Exchange.IsFor { x with info := some info } x.method x.uri (some info) :=
    ⟨rfl, rfl, rfl⟩
  have rebuilds : Stage.queryRebuilder ∈ a.beforeSecurity := by
    simp [beforeSecurity, intercepted]
  obtain ⟨_, _, _, _, _, -, -, front, -⟩ := head_of_handsLast stages h
  obtain ⟨y, _, _, hy, rebuilt⟩ := front.proceeds_of_mem before start rebuilds
  have has := (Exchange.rebuildQuery_ok (read.congr hy.target) (Stage.runs_queryRebuilder_ok rebuilt)).1
  rw [Uri.hasPath_of_target hy.target] at has
  exact (read has).1

/-- A veto on the route's own path cannot be got around by another spelling of the path. Interceptors
and mechanisms are held to leave the method, the target up to its query and the route. -/
theorem veto_holds_for_every_spelling (hr : Registry.Built a files r) (ht : r.table = some table)
    (hc : a.security = (SecurityChain.ofPlugins mechanisms authorizers tokens).1)
    (interceptors : ∀ i ∈ a.interceptors.atPoint .beforeAuth, ∀ m u info, u.IsRead →
      i.handle.Maintains (Exchange.IsFor · m u info))
    (keeps : ∀ p ∈ mechanisms, p.enabled = true → ∀ m u info, u.IsRead →
      p.behaviour.authenticate.Maintains (Exchange.IsFor · m u info))
    {p : Plugin Authorizer} {entry : VetoEntry} (hp : p ∈ authorizers) (on : p.enabled = true)
    (hv : p.behaviour = (Authorizer.veto entry).1) (named : entry.path ≠ "")
    (same : normalizePath entry.path = route.pattern.text) {req : Request} {text : String}
    (read : Uri.parse text = .ok req.uri) (served : req.method ∈ Method.served)
    (method : ∃ n ∈ entry.methods, n.toList.map Char.toUpper = req.method.name.toList)
    (hx : table.resolve req.uri.path = some route) (hs : route.kind = .proxy ∨ route.secured = true)
    (limits : ContentLimits) (t : Trace) (z : Exchange) :
    ¬route.pipeline.HandsLast (route.start limits req) t z := by
  intro h
  have sound := hr.sound.table table ht
  have hu := Uri.isRead_of_parse read
  obtain ⟨secured, more, last, stages⟩ := (sound.proper hx).assembled.secured_stages hs
  have lasting : Exchange.Lasting (Exchange.IsFor · req.method req.uri (some route.info)) :=
    Exchange.lasting_isFor hu
  have start : Exchange.IsFor { route.start limits req with info := some route.info } req.method
      req.uri (some route.info) := ⟨rfl, rfl, rfl⟩
  have path : req.uri.path ≠ "" :=
    Assembly.path_ne_empty stages (fun i hi => interceptors i hi _ _ _ hu) hu h
  obtain ⟨_, _, y, -, -, hy, allowed⟩ := Assembly.decides_of_handsLast stages lasting
    (fun i hi => interceptors i hi _ _ _ hu)
    (fun m hm => by
      rw [hc] at hm
      obtain ⟨q, hq, on, rfl⟩ := SecurityChain.mem_enabled_iff.mp hm
      exact keeps q hq on _ _ _ hu) start h
  have isSecured : SecurityChain.isSecured y = true := by
    rw [SecurityChain.isSecured, hy.info]
    exact secured
  have granted := allowed isSecured
  rw [hc] at granted
  have free := (SecurityChain.isAllowed_ofPlugins_iff.mp granted).2 p hp on (by rw [hv]; rfl)
  obtain ⟨n, hn, case⟩ := method
  have slash : entry.path.toList.head? = some '/' := by
    rw [← head_normalizePath named, same]
    exact (sound.proper hx).rooted
  have forbidden : (Authorizer.veto entry).1.isAllowed y = false := by
    refine Authorizer.veto_forbids slash ?_ ?_
    · rw [same, hy.path]
      exact sound.isAbove hx path
    · rw [hy.method]
      exact Authorizer.mem_parseMethods served hn case
  rw [hv, forbidden] at free
  cases free

/-- A gateway that greets everyone, but for a veto. -/
def greeterVeto (entry : VetoEntry) : List (Plugin Authorizer) :=
  [{ name := "full", behaviour := .full false },
    { name := "veto", behaviour := (Authorizer.veto entry).1 }]

/-- A veto at the root is in force for the root. -/
theorem greeter_veto_holds :
    let entry : VetoEntry := ⟨"//", ["Get"]⟩
    let authorizers := greeterVeto entry
    let a : Assembly := { security := (SecurityChain.ofPlugins [] authorizers none).1 }
    Uri.parse "/" = .ok {} ∧ ∀ t z,
      ¬(greeterRoute a).pipeline.HandsLast ((greeterRoute a).start {} {}) t z := by
  intro entry authorizers a
  have named : entry.path ≠ "" := by decide
  have same : normalizePath entry.path = (greeterRoute a).pattern.text := by decide
  have read : Uri.parse "/" = .ok ({} : Request).uri := by decide
  have chain : a.security = (SecurityChain.ofPlugins [] authorizers none).1 := rfl
  have veto : { name := "veto", behaviour := (Authorizer.veto entry).1 } ∈ authorizers :=
    List.mem_cons_of_mem _ List.mem_cons_self
  exact ⟨read, veto_holds_for_every_spelling (greeter_built a) rfl chain nofun nofun veto rfl rfl
    named same read (by decide) ⟨"Get", List.mem_cons_self, by decide⟩ (greeterTable_resolve a)
    (.inr rfl) {}⟩

/-- The empty path is normalized to the root, but a veto on it is no veto on the root: it has no valid
path and forbids nothing. Neither does a veto help when an interceptor takes the route's information
off the exchange. -/
theorem greeter_veto_on_empty_path :
    let emptyPath : Assembly :=
      { security := (SecurityChain.ofPlugins [] (greeterVeto ⟨"", ["GET"]⟩) none).1 }
    let release : Plugin Interceptor := { name := "release", behaviour :=
      { point := .beforeAuth, handle := Handler.change fun x => { x with info := none } } }
    let released : Assembly :=
      { security := (SecurityChain.ofPlugins [] (greeterVeto ⟨"/", ["GET"]⟩) none).1
        interceptors := .ofPlugins [release] }
    normalizePath "" = "/" ∧ Method.get ∈ Method.served ∧ Uri.parse "/" = .ok {} ∧
      (∀ a, ∃ r, Registry.Built a {} r ∧ r.table = some (greeterTable a)) ∧
      Greeted emptyPath ∧ Greeted released := by
  intro emptyPath release released
  have unguarded : Greeted emptyPath := by
    refine greeted_of_passes (P := fun _ => True) ?_
    iterate 12 refine Passes.exists_cons (.done _) ?_
    exact ⟨_, .nil _, trivial⟩
  have unmarked : Greeted released := by
    refine greeted_of_passes (P := fun _ => True) ?_
    iterate 12 refine Passes.exists_cons (.done _) ?_
    exact ⟨_, .nil _, trivial⟩
  exact ⟨by decide, by decide, by decide, fun a => ⟨_, greeter_built a, rfl⟩, unguarded, unmarked⟩

end Gateway
