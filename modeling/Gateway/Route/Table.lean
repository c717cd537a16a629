import Gateway.Pipeline.Basic
import Gateway.Route.Pattern

/-! The routes of a gateway once they are complete. A route for exactly the path comes before all
others; of the rest the one with the longest pattern counts. -/
namespace Gateway

structure Route where
  pattern : Pattern
  name : String
  kind : RouteKind
  secured : Bool
  pipeline : Pipeline

def Route.relativePath (r : Route) (path : String) : String := r.pattern.relativePath path

structure RoutingTable where
  exact : List Route
  /-- Longest pattern first, equally long ones as they were registered. -/
  below : List Route
  notManaged : Pipeline

namespace RoutingTable

def isLonger (a b : Route) : Bool :=
  decide (b.pattern.text.utf8ByteSize ≤ a.pattern.text.utf8ByteSize)

def ofRoutes (exact below : List Route) (notManaged : Pipeline) : RoutingTable :=
  ⟨exact, below.mergeSort isLonger, notManaged⟩

/-- The route of a path. -/
def resolve (t : RoutingTable) (path : String) : Option Route :=
  match t.exact.find? fun r => r.pattern.text = normalizePath path with
  | some r => some r
  | none => t.below.find? fun r => r.pattern.covers path

def size (t : RoutingTable) : Nat := t.exact.length + t.below.length

/-- All routes, those for exactly one path by their pattern. -/
def listed (t : RoutingTable) : List Route :=
  t.exact.mergeSort (fun a b => decide (a.pattern.text ≤ b.pattern.text)) ++ t.below

end RoutingTable
end Gateway
