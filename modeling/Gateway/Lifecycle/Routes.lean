import Gateway.Config.Decode
import Gateway.Plugin.Builtin
import Gateway.Route.Registry

/-! The routes of a configured gateway: services first, then proxies, then directories. -/
namespace Gateway

/-- All that requests are routed by, with the alerts raised while it was built. -/
structure Routes where
  table : RoutingTable
  pools : List Pool
  alerts : List Event

namespace PluginSet

/-- What all pipelines of the gateway share, and the alerts about it. -/
def assembly (p : PluginSet) (c : Config) : Assembly × List Event :=
  let (security, alerts) := SecurityChain.ofPlugins p.mechanisms p.authorizers p.tokens
  ({ security, interceptors := .ofPlugins p.interceptors, log := c.logging.requestLog }, alerts)

def routes (p : PluginSet) (c : Config) (files : FileTree) : Routes :=
  let (assembly, alerts) := p.assembly c
  let (r, serviceAlerts) := { assembly, files : Registry }.plugServices p.services
  let (r, proxyAlerts) := r.plugProxies c.proxyEntries
  let (r, staticAlerts) := r.plugStatics c.mounts
  let (r, table, tableAlerts) := r.freeze
  { table
    pools := r.pools
    alerts := alerts ++ serviceAlerts ++ proxyAlerts ++ staticAlerts ++ tableAlerts }

end PluginSet
end Gateway
