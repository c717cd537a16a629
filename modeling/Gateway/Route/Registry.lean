import Gateway.Config.Schema
import Gateway.Pipeline.Assembly
import Gateway.Plugin.Service
import Gateway.Proxy.Stage
import Gateway.Route.Table
import Gateway.Site.Stage

/-! Registration of routes. An entry that cannot be bound is left out and leaves nothing behind.
Once the table is frozen nothing can be bound. -/
namespace Gateway

inductive RegistryError where
  | invalidPattern (pattern : String)
  | frozen
  | duplicate (pattern : String)
  | missingUri (plugin : String)
  | missingField (field : String)
  | invalidBackend (uri reason : String)
  | noBackends (proxy : String)
  | missingDirectory (path : String)
  deriving DecidableEq

def RegistryError.message : RegistryError → String
  | invalidPattern pattern => "invalid pattern " ++ Text.quoted pattern ++ ", patterns must start with /"
  | frozen => "routing table is frozen"
  | duplicate pattern => "pattern " ++ pattern ++ " is already bound"
  | missingUri plugin => "plugin " ++ plugin ++ " has no uri"
  | missingField field => "missing " ++ field
  | invalidBackend uri reason => "invalid backend " ++ uri ++ ": " ++ reason
  | noBackends proxy => "proxy " ++ proxy ++ " has no valid backend"
  | missingDirectory path => "directory " ++ path ++ " not found"

/-- Routes as they are registered, with the pools of the proxies among them. A proxy knows its
pool by its position. -/
structure Registry where
  assembly : Assembly
  files : FileTree := {}
  exact : List Route := []
  below : List Route := []
  pools : List Pool := []
  table : Option RoutingTable := none

/-- What comes of a registration, with the alerts raised on the way. -/
abbrev Binding := Except RegistryError Registry × List Event

namespace Registry

def refuse (e : RegistryError) (alerts : List Event := []) : Binding := (.error e, alerts)

def parsePattern (pattern : String) (policy : MatchPolicy) : Except RegistryError Pattern :=
  match Pattern.parse? pattern policy with
  | some p => .ok p
  | none => .error (.invalidPattern pattern)

/-- Bind a route together with the pools it needs. A second route for exactly a path is an error;
a second one for the paths below a pattern is ignored. -/
def bind (r : Registry) (route : Route) (pools : List Pool := []) : Binding :=
  let text := route.pattern.text
  let hasPattern := fun (other : Route) => other.pattern.text = text
  if r.table.isSome then refuse .frozen
  else match route.pattern.policy with
    | .exact =>
      if r.exact.any hasPattern then refuse (.duplicate text)
      else (.ok { r with exact := r.exact ++ [route], pools := r.pools ++ pools }, [])
    | .below =>
      if r.below.any hasPattern then
        (.ok r, [.warning "Prefix already bound, later registration is shadowed"])
      else (.ok { r with below := r.below ++ [route], pools := r.pools ++ pools }, [])

/-- Bind a pipeline to a pattern. -/
def register (r : Registry) (pattern : String) (policy : MatchPolicy) (pipeline : Pipeline)
    (kind : RouteKind) (secured : Bool) (name : String) : Binding :=
  if r.table.isSome then refuse .frozen
  else match parsePattern pattern policy with
    | .error e => refuse e
    | .ok p => r.bind ⟨p, name, kind, secured, pipeline⟩

/-- Bind a route with the information attached to its exchanges. -/
def bindInfo (r : Registry) (policy : MatchPolicy) (info : RouteInfo) (pipeline : Pipeline)
    (pools : List Pool := []) : Binding :=
  let (outcome, alerts) :=
    r.bind ⟨⟨info.pattern, policy⟩, info.name, info.kind, info.secured, pipeline⟩ pools
  (outcome, r.assembly.alerts ++ alerts)

/-- Bind a service to its configured path, or to its own. A disabled one is left out. -/
def registerService (r : Registry) (p : Plugin Service) : Binding :=
  if !p.enabled then (.ok r, [])
  else match p.uri.orElse fun _ => p.behaviour.defaultUri with
    | none => refuse (.missingUri p.name)
    | some uri =>
      match parsePattern uri p.behaviour.policy with
      | .error e => refuse e
      | .ok pattern =>
        let info : RouteInfo := ⟨.service, pattern.text, p.name, p.secured⟩
        r.bindInfo pattern.policy info
          (r.assembly.service info p.behaviour.stage p.behaviour.requiresContent)

def parseBackend (uri : String) (budget : Nat) : Except RegistryError Host :=
  match Uri.parse uri with
  | .error e => .error (.invalidBackend uri e.message)
  | .ok u => match Host.ofUri u budget with
    | .error e => .error (.invalidBackend uri e.message)
    | .ok host => .ok host

/-- The hosts among some backends, and an alert for each of the others. -/
def hostsOf (backends : List String) (budget : Nat) : List Host × List Event :=
  let parsed := backends.map (parseBackend · budget)
  (parsed.filterMap Except.toOption,
    (parsed.filter fun p => p.toOption.isNone).map fun _ => .warning "Skipping backend")

/-- Bind a proxy to everything below a path. Proxies are always secured. -/
def registerProxy (r : Registry) (location name : String) (backends : List String)
    (options : Config.Proxy) : Binding :=
  match parsePattern location .below with
  | .error e => refuse e
  | .ok pattern =>
    let (hosts, alerts) := hostsOf backends options.maxConnectionsPerHost
    if hosts.isEmpty then refuse (.noBackends name) alerts
    else
      let info : RouteInfo := ⟨.proxy, pattern.text, name, true⟩
      let proxy : Proxy := ⟨name, r.pools.length, options.setsHost⟩
      let pool : Pool := { name, hosts, options := options.poolOptions }
      let (outcome, more) := r.bindInfo .below info (r.assembly.proxy info proxy.stage) [pool]
      (outcome, alerts ++ more)

/-- Serve a directory below a path. -/
def registerStatic (r : Registry) (mount directory welcomeFile : String) : Binding :=
  match parsePattern mount .below with
  | .error e => refuse e
  | .ok pattern =>
    match r.files.directory? directory with
    | none => refuse (.missingDirectory directory)
    | some root =>
      let info : RouteInfo := ⟨.static, pattern.text, directory, false⟩
      let site := Site.ofDirectory r.files root pattern.text welcomeFile
      r.bindInfo .below info (r.assembly.static info site.stage)

/-- Go on with what came of a binding; a refused one leaves the registry as it was. -/
def keep (r : Registry) (refusal : Event) : Binding → Registry × List Event
  | (.ok bound, alerts) => (bound, alerts)
  | (.error _, alerts) => (r, alerts ++ [refusal])

/-- Bind entries one after the other. -/
def plugAll {α : Type} (plug : Registry → α → Registry × List Event) (r : Registry)
    (entries : List α) : Registry × List Event :=
  entries.foldl (fun (r, alerts) e => let (r, more) := plug r e; (r, alerts ++ more)) (r, [])

def plugServices : Registry → List (Plugin Service) → Registry × List Event :=
  plugAll fun r p => r.keep (.error "Service not bound") (r.registerService p)

/-- Bind a proxy as it is configured. -/
def bindProxy (r : Registry) (p : Config.Proxy) : Binding :=
  match p.location, p.pass with
  | none, _ => refuse (.missingField "location")
  | _, none => refuse (.missingField "proxy-pass")
  | some location, some pass =>
    let alerts := pass.others.map fun _ => Event.warning "Ignoring non string backend"
    let (outcome, more) := r.registerProxy location (p.name.getD location) pass.uris p
    (outcome, alerts ++ more)

def skippedProxy : Event := .warning "Skipping proxy entry"

/-- Bind all proxies; none stands for an entry that could not be decoded. -/
def plugProxies : Registry → List (Option Config.Proxy) → Registry × List Event :=
  plugAll fun r p =>
    match p with
    | some p => r.keep skippedProxy (r.bindProxy p)
    | none => (r, [skippedProxy])

def plugStatics : Registry → List Config.StaticMount → Registry × List Event :=
  plugAll fun r m => r.keep (.error "Static resources not bound")
    (r.registerStatic m.mount m.directory m.welcomeFile)

/-- Make the routing table, once. -/
def freeze (r : Registry) : Registry × RoutingTable × List Event :=
  match r.table with
  | some t => (r, t, [])
  | none =>
    let t := RoutingTable.ofRoutes r.exact r.below r.assembly.notManaged
    ({ r with table := some t }, t, r.assembly.alerts)

end Registry
end Gateway
