import Gateway.Config.Schema

/-! Decoding configurations. What is missing takes its default, unknown keys do not matter, and a
value of another type is refused. -/
namespace Gateway

/-- The fields of a section. Instead of a table there may be an array with the fields in order. -/
def Toml.Value.fields? (names : List String) : Toml.Value → Option Toml.Table
  | .array items => if items.length ≤ names.length then some (names.zip items) else none
  | v => v.entries?

namespace Toml.Table

/-- A field that must be there. -/
def required? {α : Type} (t : Toml.Table) (key : String) (decode : Toml.Value → Option α) : Option α :=
  (t.lookup key).bind decode

/-- A field with a default. -/
def field? {α : Type} (t : Toml.Table) (key : String) (decode : Toml.Value → Option α) (default : α) :
    Option α :=
  match t.lookup key with
  | some v => decode v
  | none => some default

/-- A field that may be missing. -/
def optional? {α : Type} (t : Toml.Table) (key : String) (decode : Toml.Value → Option α) :
    Option (Option α) :=
  t.field? key (fun v => (decode v).map some) none

end Toml.Table

namespace Config
open Toml (Value)

/-- Sizes and counts fit into sixty-three bits. -/
def maxNumber : Nat := Nat.pow 2 63 - 1

def decodeNumber : Value → Option Nat := Value.natural? maxNumber

def decodeList {α : Type} (decode : Value → Option α) (v : Value) : Option (List α) :=
  v.array?.bind fun items => items.mapM decode

def decodeTexts : Value → Option (List String) := decodeList Value.string?

def Tls.decode (v : Value) : Option Tls := do
  let t ← v.fields? ["cert-path", "key-path"]
  pure ⟨← t.required? "cert-path" Value.string?, ← t.required? "key-path" Value.string?⟩

def decodeSocketNumber (v : Value) : Option UInt16 := (v.natural? 65535).map UInt16.ofNat

def Listener.decode (v : Value) : Option Listener := do
  let t ← v.fields? ["http-listener", "http-host", "http-port", "https-listener", "https-host",
    "https-port", "tls"]
  let d : Listener := {}
  pure
    { httpEnabled := ← t.field? "http-listener" Value.boolean? d.httpEnabled
      httpHost := ← t.field? "http-host" Value.string? d.httpHost
      httpNumber := ← t.field? "http-port" decodeSocketNumber d.httpNumber
      httpsEnabled := ← t.field? "https-listener" Value.boolean? d.httpsEnabled
      httpsHost := ← t.field? "https-host" Value.string? d.httpsHost
      httpsNumber := ← t.field? "https-port" decodeSocketNumber d.httpsNumber
      tls := ← t.optional? "tls" Tls.decode }

def LogFormat.ofText? : String → Option LogFormat
  | "pretty" => some .pretty
  | "json" => some .json
  | _ => none

/-- A format is named by a text, or by the key of a table with nothing in it. -/
def LogFormat.decode : Value → Option LogFormat
  | .string s => ofText? s
  | .table [(s, .table [])] => ofText? s
  | .table [(s, .array [])] => ofText? s
  | _ => none

def decodeByte (v : Value) : Option UInt8 := (v.natural? 255).map UInt8.ofNat

def Logging.decode (v : Value) : Option Logging := do
  let t ← v.fields? ["log-level", "log-format", "log-exchange-dump", "requests-log-trace-headers"]
  let d : Logging := {}
  pure
    { level := ← t.field? "log-level" Value.string? d.level
      format := ← t.field? "log-format" LogFormat.decode d.format
      dumpLevel := ← t.field? "log-exchange-dump" decodeByte d.dumpLevel
      traceHeaders := ← t.field? "requests-log-trace-headers" decodeTexts d.traceHeaders }

def Metrics.decode (v : Value) : Option Metrics := do
  let t ← v.fields? ["enabled", "listen-address"]
  let d : Metrics := {}
  pure
    { enabled := ← t.field? "enabled" Value.boolean? d.enabled
      listenAddress := ← t.field? "listen-address" Value.string? d.listenAddress }

def ProxyPass.decode : Value → Option ProxyPass
  | .string uri => some (.one uri)
  | .array values => some (.many values)
  | _ => none

def Proxy.decode (v : Value) : Option Proxy := do
  let t ← v.fields? ["location", "proxy-pass", "name", "connections-per-thread", "max-queue-size",
    "soft-max-connections-per-thread", "connections-ttl", "rewrite-host-header",
    "problem-server-retry"]
  let d : Proxy := {}
  pure
    { location := ← t.optional? "location" Value.string?
      pass := ← t.optional? "proxy-pass" ProxyPass.decode
      name := ← t.optional? "name" Value.string?
      connections := ← t.field? "connections-per-thread" decodeNumber d.connections
      maxQueueSize := ← t.field? "max-queue-size" decodeNumber d.maxQueueSize
      softMaxConnections :=
        ← t.field? "soft-max-connections-per-thread" decodeNumber d.softMaxConnections
      connectionsTtl := ← t.field? "connections-ttl" Value.integer? d.connectionsTtl
      setsHost := ← t.field? "rewrite-host-header" Value.boolean? d.setsHost
      retrySeconds := ← t.field? "problem-server-retry" decodeNumber d.retrySeconds }

def StaticMount.decode (v : Value) : Option StaticMount := do
  let t ← v.fields? ["what", "where", "welcome-file"]
  pure
    { directory := ← t.required? "what" Value.string?
      mount := ← t.required? "where" Value.string?
      welcomeFile := ← t.field? "welcome-file" Value.string? "index.html" }

/-- The keys that every plugin has. -/
def PluginArgs.ownKeys : List String := ["enabled", "secured", "uri"]

def PluginArgs.decode (v : Value) : Option PluginArgs := do
  let t ← v.entries?
  pure
    { enabled := ← Toml.Table.optional? t "enabled" Value.boolean?
      secured := ← Toml.Table.optional? t "secured" Value.boolean?
      uri := ← Toml.Table.optional? t "uri" Value.string?
      extra := t.filter fun e => e.1 ∉ ownKeys }

def decodePluginArgs (v : Value) : Option (List (String × PluginArgs)) :=
  v.entries?.bind fun t => t.mapM fun e => (PluginArgs.decode e.2).map (e.1, ·)

def decodeUser (v : Value) : Option UserEntry := do
  let t ← v.fields? ["userid", "password", "roles"]
  pure
    { userid := ← t.required? "userid" Value.string?
      password := ← t.required? "password" Value.string?
      roles := ← t.field? "roles" decodeTexts [] }

def decodePermission (v : Value) : Option PermissionEntry := do
  let t ← v.fields? ["role", "path", "methods"]
  pure
    { role := ← t.required? "role" Value.string?
      path := ← t.required? "path" Value.string?
      methods := ← t.field? "methods" decodeTexts [] }

def decodeVeto (v : Value) : Option VetoEntry := do
  let t ← v.fields? ["path", "methods"]
  pure ⟨← t.required? "path" Value.string?, ← t.required? "methods" decodeTexts⟩

def Tokens.decode (v : Value) : Option Tokens := do
  let t ← v.fields? ["enabled", "ttl-minutes"]
  let d : Tokens := {}
  pure
    { enabled := ← t.field? "enabled" Value.boolean? d.enabled
      ttlMinutes := ← t.field? "ttl-minutes" decodeNumber d.ttlMinutes }

/-- Read a whole configuration out of a value. -/
def decode (v : Value) : Option Config := do
  let t ← v.fields? ["instance-name", "listener", "requests-limit", "buffer-size",
    "max-content-size", "request-timeout-secs", "shutdown-timeout-secs", "logging", "metrics",
    "proxies", "static-resources", "plugins-args", "users", "acl", "method-vetoes",
    "token-manager"]
  let d : Config := {}
  pure
    { instanceName := ← t.field? "instance-name" Value.string? d.instanceName
      listener := ← t.field? "listener" Listener.decode d.listener
      requestsLimit := ← t.field? "requests-limit" decodeNumber d.requestsLimit
      bufferSize := ← t.field? "buffer-size" decodeNumber d.bufferSize
      maxContentSize := ← t.field? "max-content-size" decodeNumber d.maxContentSize
      requestTimeout := ← t.field? "request-timeout-secs" decodeNumber d.requestTimeout
      shutdownTimeout := ← t.field? "shutdown-timeout-secs" decodeNumber d.shutdownTimeout
      logging := ← t.field? "logging" Logging.decode d.logging
      metrics := ← t.field? "metrics" Metrics.decode d.metrics
      proxies := ← t.field? "proxies" Value.array? d.proxies
      mounts := ← t.field? "static-resources" (decodeList StaticMount.decode) d.mounts
      pluginArgs := ← t.field? "plugins-args" decodePluginArgs d.pluginArgs
      users := ← t.field? "users" (decodeList decodeUser) d.users
      permissions := ← t.field? "acl" (decodeList decodePermission) d.permissions
      vetoes := ← t.field? "method-vetoes" (decodeList decodeVeto) d.vetoes
      tokens := ← t.field? "token-manager" Tokens.decode d.tokens }

/-- Every proxy of the configuration, or none where it cannot be decoded. -/
def proxyEntries (c : Config) : List (Option Proxy) := c.proxies.map Proxy.decode

end Config
end Gateway
