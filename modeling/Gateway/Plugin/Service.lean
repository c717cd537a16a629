import Gateway.Pipeline.Basic
import Gateway.Route.Pattern

/-! Services answer requests themselves. Two are built in: one tells that the gateway is there, one
tells callers their roles. -/
namespace Gateway

structure Service where
  /-- Where the service is bound unless configured otherwise. -/
  defaultUri : Option String := none
  policy : MatchPolicy := .below
  /-- Whether the request content has to be in memory before the service runs. -/
  requiresContent : Bool := false
  handle : Handler Unit

namespace Service

/-- The end of a service's pipeline. -/
def stage (s : Service) : Stage where
  name := "service"
  handle := do
    s.handle
    pure .proceed

def setStatus (status : Status) : Handler Unit :=
  Handler.changeResponse fun r => { r with status }

def setJson (status : Status) (value : Json) : Handler Unit :=
  Handler.changeResponse (·.setJson status value)

/-- A greeting. -/
def ping (instanceName : String) : Service where
  defaultUri := some "/ping"
  policy := .exact
  handle := do
    let method := (← Handler.view).method
    if method = .options then setStatus .ok
    else if method ≠ .get then setStatus .methodNotAllowed
    else setJson .ok (.object
      [("message", .str "Greetings from gatehouse!"), ("instance", .str instanceName)])

/-- The id and the roles of the caller. -/
def roles : Service where
  defaultUri := some "/roles"
  handle := do
    let x ← Handler.view
    if x.method ≠ .get then setStatus .methodNotAllowed
    else match x.account with
      | none => throw .authentication
      | some a => setJson .ok (.object
          [("authenticated", .bool true), ("id", .str a.id), ("roles", .texts a.roles)])

end Service
end Gateway
