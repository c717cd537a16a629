import Gateway.Config.Decode
import Gateway.Json
import Gateway.Toml.Printer

/-! Encoding configurations: the tables that decode to them, in the order in which they are
written. A number that does not fit into sixty-three bits cannot be encoded. -/
namespace Gateway.Config
open Toml (Value)

def encodeNumber (n : Nat) : Option Value := if n ≤ maxNumber then some (.integer n) else none

def encodeTexts (texts : List String) : Value := .array (texts.map .string)

/-- An entry for a field that is there. -/
def optionalEntry {α : Type} (key : String) (encode : α → Value) : Option α → Toml.Table
  | some a => [(key, encode a)]
  | none => []

def Tls.encode (t : Tls) : Value :=
  .table [("cert-path", .string t.certPath), ("key-path", .string t.keyPath)]

def Listener.encode (l : Listener) : Value :=
  .table ([("http-listener", .boolean l.httpEnabled), ("http-host", .string l.httpHost),
    ("http-port", .integer l.httpNumber.toNat), ("https-listener", .boolean l.httpsEnabled),
    ("https-host", .string l.httpsHost), ("https-port", .integer l.httpsNumber.toNat)] ++
    optionalEntry "tls" Tls.encode l.tls)

def LogFormat.text : LogFormat → String
  | pretty => "pretty"
  | json => "json"

def Logging.encode (l : Logging) : Value :=
  .table [("log-level", .string l.level), ("log-format", .string l.format.text),
    ("log-exchange-dump", .integer l.dumpLevel.toNat),
    ("requests-log-trace-headers", encodeTexts l.traceHeaders)]

def Metrics.encode (m : Metrics) : Value :=
  .table [("enabled", .boolean m.enabled), ("listen-address", .string m.listenAddress)]

def ProxyPass.encode : ProxyPass → Value
  | one uri => .string uri
  | many values => .array values

def Proxy.encode (p : Proxy) : Option Value := do
  let connections ← encodeNumber p.connections
  let maxQueueSize ← encodeNumber p.maxQueueSize
  let softMaxConnections ← encodeNumber p.softMaxConnections
  let retrySeconds ← encodeNumber p.retrySeconds
  pure (.table (optionalEntry "location" .string p.location ++
    optionalEntry "proxy-pass" ProxyPass.encode p.pass ++ optionalEntry "name" .string p.name ++
    [("connections-per-thread", connections), ("max-queue-size", maxQueueSize),
      ("soft-max-connections-per-thread", softMaxConnections),
      ("connections-ttl", .integer p.connectionsTtl),
      ("rewrite-host-header", .boolean p.setsHost), ("problem-server-retry", retrySeconds)]))

def StaticMount.encode (m : StaticMount) : Value :=
  .table [("what", .string m.directory), ("where", .string m.mount),
    ("welcome-file", .string m.welcomeFile)]

def PluginArgs.encode (a : PluginArgs) : Value :=
  .table (optionalEntry "enabled" .boolean a.enabled ++ optionalEntry "secured" .boolean a.secured ++
    optionalEntry "uri" .string a.uri ++ a.extra)

def encodeUser (u : UserEntry) : Value :=
  .table [("userid", .string u.userid), ("password", .string u.password),
    ("roles", encodeTexts u.roles)]

def encodePermission (p : PermissionEntry) : Value :=
  .table [("role", .string p.role), ("path", .string p.path), ("methods", encodeTexts p.methods)]

def encodeVeto (v : VetoEntry) : Value :=
  .table [("path", .string v.path), ("methods", encodeTexts v.methods)]

def Tokens.encode (t : Tokens) : Option Value := do
  pure (.table [("enabled", .boolean t.enabled), ("ttl-minutes", ← encodeNumber t.ttlMinutes)])

/-- The entries of a whole configuration. -/
def encode (c : Config) : Option Toml.Table := do
  let requestsLimit ← encodeNumber c.requestsLimit
  let bufferSize ← encodeNumber c.bufferSize
  let maxContentSize ← encodeNumber c.maxContentSize
  let requestTimeout ← encodeNumber c.requestTimeout
  let shutdownTimeout ← encodeNumber c.shutdownTimeout
  let tokens ← c.tokens.encode
  pure [("instance-name", .string c.instanceName), ("listener", c.listener.encode),
    ("requests-limit", requestsLimit), ("buffer-size", bufferSize),
    ("max-content-size", maxContentSize), ("request-timeout-secs", requestTimeout),
    ("shutdown-timeout-secs", shutdownTimeout), ("logging", c.logging.encode),
    ("metrics", c.metrics.encode), ("proxies", .array c.proxies),
    ("static-resources", .array (c.mounts.map StaticMount.encode)),
    ("plugins-args", .table (c.pluginArgs.map fun e => (e.1, e.2.encode))),
    ("users", .array (c.users.map encodeUser)),
    ("acl", .array (c.permissions.map encodePermission)),
    ("method-vetoes", .array (c.vetoes.map encodeVeto)), ("token-manager", tokens)]

/-- The configuration as a text that reads back to it. -/
def text? (c : Config) : Option String := c.encode.map Toml.document

/-- Append a proxy to those of the configuration. -/
def addProxy (c : Config) (p : Proxy) : Option Config :=
  p.encode.map fun v => { c with proxies := c.proxies ++ [v.sorted] }

end Gateway.Config

namespace Gateway.Toml

mutual

/-- The value as a structured answer. Dates and fractions, which have no form of their own there,
stand in objects. -/
def Value.toJson : Value → Json
  | .string s => .str s
  | .integer n => .num n
  | .float x => .object [("float", .str x.text)]
  | .boolean b => .bool b
  | .datetime d => .object [(Value.datetimeKey, .str d.text)]
  | .array items => .arr (itemsToJson items)
  | .table entries => .object (entriesToJson entries)

def itemsToJson : List Value → List Json
  | [] => []
  | v :: r => v.toJson :: itemsToJson r

def entriesToJson : List (String × Value) → List (String × Json)
  | [] => []
  | (k, v) :: r => (k, v.toJson) :: entriesToJson r

end

end Gateway.Toml
