import Gateway.Json
import Gateway.Plugin.Builtin

/-! Plugins laid open as structured answers. -/
namespace Gateway

namespace Plugin

def fields {α : Type} (p : Plugin α) : List (String × Json) :=
  [("name", .str p.name), ("description", .str p.description), ("enabled", .bool p.enabled),
    ("secured", .bool p.secured), ("uri", .ofOption .str p.uri), ("debug", .str p.summary)]

def toJson {α : Type} (p : Plugin α) : Json := .object p.fields

def list {α : Type} (plugins : List (Plugin α)) : Json := .arr (plugins.map toJson)

end Plugin

/-- An authorizer also tells its kind. -/
def Authorizer.toJson (p : Plugin Authorizer) : Json :=
  .object (("type", .str p.behaviour.kind.text) :: p.fields)

def PluginSet.toJson (p : PluginSet) : Json :=
  .object [("services", Plugin.list p.services), ("mechanisms", Plugin.list p.mechanisms),
    ("authorizers", .arr (p.authorizers.map Authorizer.toJson)),
    ("token_manager", .ofOption Plugin.toJson p.tokens),
    ("interceptors", Plugin.list p.interceptors)]

end Gateway
