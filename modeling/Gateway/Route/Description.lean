import Gateway.Exchange.Description
import Gateway.Route.Registry

/-! Routes, routing tables and refused registrations laid open as structured answers. -/
namespace Gateway

def Route.toJson (r : Route) : Json :=
  .object [("pattern", .str r.pattern.text), ("policy", .str r.pattern.policy.text),
    ("name", .str r.name), ("kind", .str r.kind.text), ("secured", .bool r.secured),
    ("stages", .texts r.pipeline.stageNames)]

namespace RoutingTable

def toJson (t : RoutingTable) : Json :=
  .object [("len", .nat t.size), ("empty", .bool (t.size == 0)),
    ("routes", .arr (t.listed.map Route.toJson))]

/-- Where a path leads. -/
def describe (t : RoutingTable) (path : String) : Json :=
  match t.resolve path with
  | some r => .object [("pattern", .str r.pattern.text), ("name", .str r.name),
      ("relative", .str (r.relativePath path))]
  | none => .object [("not_managed", .texts t.notManaged.stageNames)]

end RoutingTable

def RegistryError.label : RegistryError → String
  | invalidPattern _ => "InvalidPattern"
  | frozen => "Frozen"
  | duplicate _ => "Duplicate"
  | missingUri _ => "MissingUri"
  | missingField _ => "MissingField"
  | invalidBackend _ _ => "InvalidBackend"
  | noBackends _ => "NoBackends"
  | missingDirectory _ => "MissingDirectory"

def RegistryError.toJson (e : RegistryError) : Json := .labelled e.label e.message

end Gateway
