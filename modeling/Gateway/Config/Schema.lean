import Gateway.Balance.Pool
import Gateway.Exchange.Content
import Gateway.Pipeline.RequestLog
import Gateway.Security.Authorizer
import Gateway.Security.Mechanism
import Gateway.Toml.Value

/-! The configuration of a gateway. Every section has defaults, so an empty text yields a gateway
with the built-in services only. -/
namespace Gateway
namespace Config

/-- Where the certificate chain and the private key are. -/
structure Tls where
  certPath : String
  keyPath : String
  deriving DecidableEq, Repr

structure Listener where
  httpEnabled : Bool := true
  httpHost : String := "0.0.0.0"
  httpNumber : UInt16 := 8080
  httpsEnabled : Bool := false
  httpsHost : String := "0.0.0.0"
  httpsNumber : UInt16 := 4443
  tls : Option Tls := none
  deriving DecidableEq, Repr

namespace Listener

def addressText (host : String) (number : UInt16) : String := host ++ ":" ++ toString number.toNat

def httpAddress (l : Listener) : String := addressText l.httpHost l.httpNumber

def httpsAddress (l : Listener) : String := addressText l.httpsHost l.httpsNumber

end Listener

inductive LogFormat where
  | pretty
  | json
  deriving DecidableEq, Repr

structure Logging where
  level : String := "info"
  format : LogFormat := .pretty
  dumpLevel : UInt8 := 1
  traceHeaders : List String := []
  deriving DecidableEq, Repr

def Logging.requestLog (l : Logging) : RequestLogSettings := ⟨l.dumpLevel.toNat, l.traceHeaders⟩

structure Metrics where
  enabled : Bool := false
  listenAddress : String := "127.0.0.1:9090"
  deriving DecidableEq, Repr

/-- The backends of a proxy: one, or a list in which anything may stand. -/
inductive ProxyPass where
  | one (uri : String)
  | many (values : List Toml.Value)

namespace ProxyPass

def uris : ProxyPass → List String
  | one uri => [uri]
  | many values => values.filterMap Toml.Value.string?

/-- The values that are no texts. -/
def others : ProxyPass → List Toml.Value
  | one _ => []
  | many values => values.filter fun v => v.string?.isNone

end ProxyPass

structure Proxy where
  location : Option String := none
  pass : Option ProxyPass := none
  /-- The location serves as name if there is none. -/
  name : Option String := none
  connections : Nat := 10
  maxQueueSize : Nat := 0
  softMaxConnections : Nat := 5
  /-- How long idle connections are kept, in seconds; not limited unless positive. -/
  connectionsTtl : Int := -1
  setsHost : Bool := true
  retrySeconds : Nat := 10

namespace Proxy

/-- Requests admitted to a host at once. -/
def maxConnectionsPerHost (p : Proxy) : Nat := max (min p.softMaxConnections p.connections) 1

/-- Options of the proxy's pool, with the delay in milliseconds. `PoolOptions.delay` cuts it to a word. -/
def poolOptions (p : Proxy) : PoolOptions :=
  ⟨p.maxConnectionsPerHost, p.maxQueueSize, p.retrySeconds * 1000⟩

/-- The limit on the life of idle connections, in seconds. -/
def idleLimit? (p : Proxy) : Option Nat :=
  if p.connectionsTtl > 0 then some p.connectionsTtl.toNat else none

end Proxy

/-- A directory served as files. -/
structure StaticMount where
  directory : String
  mount : String
  welcomeFile : String := "index.html"
  deriving DecidableEq, Repr

/-- Settings of one plugin, with whatever else is said about it. -/
structure PluginArgs where
  enabled : Option Bool := none
  secured : Option Bool := none
  uri : Option String := none
  extra : Toml.Table := []

/-- An argument of the plugin's own that is a truth value. -/
def PluginArgs.flag (a : PluginArgs) (key : String) : Option Bool :=
  (a.extra.lookup key).bind Toml.Value.boolean?

structure Tokens where
  enabled : Bool := true
  ttlMinutes : Nat := 15
  deriving DecidableEq, Repr

end Config

structure Config where
  instanceName : String := "default"
  listener : Config.Listener := {}
  requestsLimit : Nat := 100
  bufferSize : Nat := 16384
  maxContentSize : Nat := 16777216
  requestTimeout : Nat := 60
  shutdownTimeout : Nat := 60
  logging : Config.Logging := {}
  metrics : Config.Metrics := {}
  /-- Proxies as they stand in the text; each is decoded on its own. -/
  proxies : List Toml.Value := []
  mounts : List Config.StaticMount := []
  pluginArgs : List (String × Config.PluginArgs) := []
  users : List UserEntry := []
  permissions : List PermissionEntry := []
  vetoes : List VetoEntry := []
  tokens : Config.Tokens := {}

namespace Config

def argsOf (c : Config) (plugin : String) : PluginArgs := (c.pluginArgs.lookup plugin).getD {}

def limits (c : Config) : ContentLimits := .ofSizes c.maxContentSize c.bufferSize

end Config
end Gateway
