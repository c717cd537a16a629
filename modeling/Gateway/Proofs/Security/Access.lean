import Gateway.Proofs.Pipeline.Secured
import Gateway.Proofs.Route.Registry

/-! Access to secured routes. Without a grant, requests do not come to the last stage of a secured
route of a registry. -/
namespace Gateway
variable {a : Assembly} {files : FileTree} {r : Registry} {table : RoutingTable} {route : Route}
  {mechanisms : List (Plugin Mechanism)} {authorizers : List (Plugin Authorizer)}
  {tokens : Option (Plugin TokenManager)} {x : Exchange}

/-- Secured routes begin with the stages of security and attach that they are secured. -/
lemma Route.Assembled.secured_stages (h : route.Assembled a)
    (hs : route.kind = .proxy ∨ route.secured = true) :
    route.secured = true ∧
      ∃ more last, route.pipeline.stages = a.securedHead route.info ++ more ++ [last] := by
  cases h with
  | service p kind secured pipeline =>
    have on : route.secured = true := hs.resolve_left (by rw [kind]; decide)
    exact ⟨on, _, _, by rw [pipeline]; rfl⟩
  | proxy p kind secured pipeline =>
    refine ⟨secured, [Forwarding.credentialsStage, Forwarding.stage] ++
      a.intercepted .afterAuth false, p.stage, ?_⟩
    rw [pipeline]
    rfl
  | static s kind secured pipeline =>
    rcases hs with hs | hs
    · rw [kind] at hs
      cases hs
    · rw [secured] at hs
      cases hs

namespace SecurityChain

/-- A request comes to the last stage of a secured route only after some enabled allower has granted
the exchange and no enabled vetoer has forbidden it, on the exchange as the security stage decided on
it. Interceptors and mechanisms are handed the exchange before and are held to leave it secured, as do
the built-in mechanisms and all who leave the route's information on it. -/
theorem granted_before_last_stage (hr : Registry.Built a files r) (ht : r.table = some table)
    (hc : a.security = (ofPlugins mechanisms authorizers tokens).1)
    (interceptors : ∀ i ∈ a.interceptors.atPoint .beforeAuth,
      i.handle.Maintains (isSecured · = true))
    (keeps : ∀ p ∈ mechanisms, p.enabled = true →
      p.behaviour.authenticate.Maintains (isSecured · = true))
    (hx : table.resolve x.path = some route) (hs : route.kind = .proxy ∨ route.secured = true) :
    (∀ t z, route.pipeline.HandsLast x t z → ∃ u v y, t = u ++ v ∧
        route.pipeline.Decides a.security x u y ∧ SomeGrants authorizers y ∧
        NoneForbids authorizers y) ∧
      ((∀ p ∈ authorizers, p.enabled = true → p.behaviour.kind ≠ .allower) →
        ∀ t z, ¬route.pipeline.HandsLast x t z) := by
  obtain ⟨secured, more, last, stages⟩ :=
    ((hr.sound.table table ht).proper hx).assembled.secured_stages hs
  have granted : ∀ t z, route.pipeline.HandsLast x t z → ∃ u v y, t = u ++ v ∧
      route.pipeline.Decides a.security x u y ∧ SomeGrants authorizers y ∧
      NoneForbids authorizers y := by
    intro t z h
    have lasting : Exchange.Lasting (isSecured · = true) :=
      Exchange.lasting_info fun info => info.any (·.secured) = true
    have start : isSecured { x with info := some route.info } = true := secured
    obtain ⟨u, v, y, rfl, decides, on, allowed⟩ := Assembly.decides_of_handsLast stages lasting
      interceptors
      (fun m hm => by
        rw [hc] at hm
        obtain ⟨p, hp, on, rfl⟩ := mem_enabled_iff.mp hm
        exact keeps p hp on) start h
    have both := allowed on
    rw [hc] at both
    exact ⟨u, v, y, rfl, decides, isAllowed_ofPlugins_iff.mp both⟩
  refine ⟨granted, fun none t z h => ?_⟩
  obtain ⟨u, v, y, -, -, ⟨p, hp, on, kind, -⟩, -⟩ := granted t z h
  exact none p hp on kind

end SecurityChain

/-- A greeting at the root for callers who are allowed. -/
def greeter : Plugin Service :=
  { name := "ping", behaviour := .ping "gateway", secured := true, uri := some "/" }

def greeterRoute (a : Assembly) : Route :=
  ⟨⟨"/", .exact⟩, "ping", .service, true,
    a.service ⟨.service, "/", "ping", true⟩ greeter.behaviour.stage false⟩

def greeterTable (a : Assembly) : RoutingTable := .ofRoutes [greeterRoute a] [] a.notManaged

lemma greeter_built (a : Assembly) :
    Registry.Built a {}
      { assembly := a, exact := [greeterRoute a], table := some (greeterTable a) } :=
  .freeze (.service greeter .empty rfl)

lemma greeterTable_resolve (a : Assembly) : (greeterTable a).resolve "/" = some (greeterRoute a) := by
  have found : "/" = normalizePath "/" := by decide
  rw [RoutingTable.resolve, greeterTable, RoutingTable.ofRoutes, List.find?_cons_of_pos]
  exact decide_eq_true found

/-- The built-in mechanisms leave the exchange secured. -/
theorem SecurityChain.greeter_granted_before_last_stage :
    let users : List UserEntry := [⟨"ada", "secret", []⟩]
    let mechanisms : List (Plugin Mechanism) :=
      [{ name := "basic", behaviour := .basic users }, { name := "token", behaviour := .bearer .ofStore }]
    let authorizers : List (Plugin Authorizer) := [{ name := "full", behaviour := .full true }]
    let a : Assembly := { security := (ofPlugins mechanisms authorizers none).1 }
    let x := Exchange.ofRequest {} {}
    (greeterTable a).resolve x.path = some (greeterRoute a) ∧
      ∀ t z, (greeterRoute a).pipeline.HandsLast x t z → ∃ u v y, t = u ++ v ∧
        (greeterRoute a).pipeline.Decides a.security x u y ∧ SomeGrants authorizers y ∧
        NoneForbids authorizers y := by
  intro users mechanisms authorizers a x
  have resolved : (greeterTable a).resolve x.path = some (greeterRoute a) :=
    greeterTable_resolve a
  have keeps : ∀ p ∈ mechanisms, p.enabled = true →
      p.behaviour.authenticate.Maintains (isSecured · = true) := by
    intro p hp _
    rcases List.mem_pair.mp hp with rfl | rfl
    · exact Mechanism.basic_maintains _
    · exact Mechanism.bearer_maintains _
  exact ⟨resolved, (granted_before_last_stage (greeter_built a) rfl rfl nofun keeps resolved
    (.inr rfl)).1⟩

/-- The exchange that a route's pipeline is started on. -/
def Route.start (route : Route) (limits : ContentLimits) (req : Request) : Exchange :=
  { Exchange.ofRequest req limits with relativePath := route.relativePath req.uri.path }

/-- A request for the root comes to the greeting, which is secured. -/
def Greeted (a : Assembly) : Prop :=
  (greeterTable a).resolve "/" = some (greeterRoute a) ∧ (greeterRoute a).secured = true ∧
    ∃ z, (greeterRoute a).pipeline.HandsLast ((greeterRoute a).start {} {}) [] z

lemma greeted_of_passes {a : Assembly} {P : Exchange → Prop}
    (h : ∃ z, Passes (a.securedHead (greeterRoute a).info ++ a.intercepted .afterAuth false)
      ((greeterRoute a).start {} {}) [] z ∧ P z) : Greeted a := by
  obtain ⟨z, h, -⟩ := h
  exact ⟨greeterTable_resolve a, rfl, z, _, greeter.behaviour.stage, rfl, h⟩

/-- Whoever is allowed, a mechanism that takes the mark off makes the greeting open to everyone. -/
theorem SecurityChain.greeter_open_to_unmarking_mechanism :
    let unmark (x : Exchange) : Exchange :=
      { x with info := x.info.map fun info => { info with secured := false } }
    let mechanism : Mechanism := { authenticate := do
      Exchange.change unmark
      pure .notAttempted }
    let a : Assembly :=
      { security := (ofPlugins [{ name := "unmark", behaviour := mechanism }] [] none).1 }
    (∃ r, Registry.Built a {} r ∧ r.table = some (greeterTable a)) ∧
      (∀ y, ¬SomeGrants [] y) ∧ Greeted a := by
  intro unmark mechanism a
  have nobody (y : Exchange) : ¬SomeGrants [] y := by
    rintro ⟨p, hp, -⟩
    exact List.not_mem_nil hp
  have unguarded : Greeted a := by
    refine greeted_of_passes (P := fun _ => True) ?_
    iterate 12 refine Passes.exists_cons (.done _) ?_
    exact ⟨_, .nil _, trivial⟩
  exact ⟨⟨_, greeter_built a, rfl⟩, nobody, unguarded⟩

end Gateway
