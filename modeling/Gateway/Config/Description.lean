import Gateway.Config.Encode

/-! Parts of a configuration laid open as structured answers. -/
namespace Gateway.Config

/-- Whether one backend stands by itself, the texts among the backends, and how the other values
are written. -/
def ProxyPass.toJson (p : ProxyPass) : Json :=
  .object [("one", .bool (match p with
      | .one _ => true
      | .many _ => false)), ("uris", .texts p.uris),
    ("invalid", .texts (p.others.map Toml.Value.inlineText))]

/-- The settings of a proxy with what follows from them for its pool. -/
def Proxy.toJson (p : Proxy) : Json :=
  .object [("location", .ofOption .str p.location), ("name", .ofOption .str p.name),
    ("pass", .ofOption ProxyPass.toJson p.pass), ("connections_per_thread", .nat p.connections),
    ("soft_max", .nat p.softMaxConnections), ("max_queue_size", .nat p.maxQueueSize),
    ("ttl_secs", .ofOption .nat p.idleLimit?), ("rewrite_host_header", .bool p.setsHost),
    ("retry_secs", .nat p.retrySeconds),
    ("max_connections_per_host", .nat p.maxConnectionsPerHost),
    ("pool", .arr [.nat p.poolOptions.maxConnectionsPerHost, .nat p.poolOptions.maxQueueSize,
      .nat p.retrySeconds])]

/-- The arguments of a plugin; those of its own count as far as they are truth values. -/
def PluginArgs.toJson (a : PluginArgs) (name : String) : Json :=
  .object [("name", .str name), ("enabled", .ofOption .bool a.enabled),
    ("secured", .ofOption .bool a.secured), ("uri", .ofOption .str a.uri),
    ("flags", .object (a.extra.map fun e => (e.1, .ofOption .bool (a.flag e.1))))]

end Gateway.Config
