import Gateway.Config.Schema
import Gateway.Plugin.Service
import Gateway.Security.Chain

/-! All plugins of a gateway, and those it has by itself as its configuration wants them. -/
namespace Gateway

structure PluginSet where
  services : List (Plugin Service) := []
  mechanisms : List (Plugin Mechanism) := []
  authorizers : List (Plugin Authorizer) := []
  tokens : Option (Plugin TokenManager) := none
  interceptors : List (Plugin Interceptor) := []

namespace Config

/-- A plugin registered as the configuration says. -/
def plugin {α : Type} (c : Config) (name description : String) (behaviour : α)
    (enabled : Bool := true) : Plugin α :=
  let args := c.argsOf name
  { name, behaviour, description
    enabled := args.enabled.getD enabled
    secured := args.secured.getD false
    uri := args.uri }

def builtinServices (c : Config) : List (Plugin Service) :=
  [c.plugin "ping" "Responds with a greeting" (.ping c.instanceName),
    c.plugin "roles" "Returns the roles of the authenticated account" .roles]

/-- Tokens are issued and accepted unless turned off. -/
def builtinTokens (c : Config) : Option (Plugin TokenManager) :=
  if c.tokens.enabled then
    some (c.plugin "randomTokenManager" "Issues random auth tokens" .ofStore)
  else none

def builtinMechanisms (c : Config) : List (Plugin Mechanism) :=
  (if c.tokens.enabled then
    [c.plugin "tokenAuthMechanism" "Authenticates with auth tokens" (.bearer .ofStore)] else []) ++
  [c.plugin "basicAuthMechanism" "HTTP basic authentication" (.basic c.users)]

/-- The authorizer of the permissions, if there are any, and the alerts about them. -/
def aclAuthorizers (c : Config) : List (Plugin Authorizer) × List Event :=
  if c.permissions = [] then ([], [])
  else
    let (acl, alerts) := Authorizer.acl c.permissions
    ([c.plugin "aclAuthorizer" "Role based permissions" acl], alerts)

/-- Allows everything. It has to be turned on. -/
def fullAuthorizer (c : Config) : Plugin Authorizer :=
  let required := ((c.argsOf "fullAuthorizer").flag "authentication-required").getD false
  c.plugin "fullAuthorizer" "Allows every request" (.full required) false

/-- One vetoer for each entry, numbered, and the alerts about them. -/
def vetoers (c : Config) : List (Plugin Authorizer) × List Event :=
  let built := c.vetoes.zipIdx.map fun (entry, i) =>
    let (veto, alerts) := Authorizer.veto entry
    (c.plugin ("methodVetoer-" ++ toString i) "Refuses methods on a path" veto, alerts)
  (built.map (·.1), built.flatMap (·.2))

/-- The plugins that every gateway has. -/
def builtinPlugins (c : Config) : PluginSet × List Event :=
  let (acl, aclAlerts) := c.aclAuthorizers
  let (vetoers, vetoAlerts) := c.vetoers
  ({ services := c.builtinServices
     mechanisms := c.builtinMechanisms
     authorizers := acl ++ c.fullAuthorizer :: vetoers
     tokens := c.builtinTokens }, aclAlerts ++ vetoAlerts)

/-- How long tokens are valid, in seconds. A life that does not fit into a word of 64 bits is left out. -/
def tokenLife (c : Config) : Nat := c.tokens.ttlMinutes * 60

end Config
end Gateway
