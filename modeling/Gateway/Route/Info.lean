/-! What a route says about itself. -/
namespace Gateway

inductive RouteKind where
  | service
  | proxy
  | static
  deriving DecidableEq, Repr

def RouteKind.text : RouteKind → String
  | service => "SERVICE"
  | proxy => "PROXY"
  | static => "STATIC"

/-- Attached to every exchange that the route handles. -/
structure RouteInfo where
  kind : RouteKind
  pattern : String
  name : String
  secured : Bool
  deriving DecidableEq, Repr

end Gateway
