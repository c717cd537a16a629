import Gateway.Exchange.Basic

/-! An exchange laid open as a structured answer, for services and interceptors that report
what they see. -/
namespace Gateway

def Json.pair (a b : Json) : Json := .arr [a, b]

def Json.textPairs (pairs : List (String × String)) : Json :=
  .arr (pairs.map fun p => .pair (.str p.1) (.str p.2))

def Headers.toJson (h : Headers) : Json :=
  .arr (h.sorted.map fun e => .pair (.str e.1) (.ofBytes e.2))

def Account.toJson (a : Account) : Json :=
  .object [("id", .str a.id), ("roles", .texts a.roles)]

def RouteInfo.toJson (i : RouteInfo) : Json :=
  .object [("kind", .str i.kind.text), ("pattern", .str i.pattern), ("name", .str i.name),
    ("secured", .bool i.secured)]

def ResponseBody.label : ResponseBody → String
  | empty => "empty"
  | full _ => "full"
  | stream _ => "stream"

def Response.toJson (r : Response) : Json :=
  .object [("status", .nat r.status.code), ("headers", r.headers.toJson),
    ("body", .str r.body.label), ("content", .ofOption .ofBytes r.content?)]

def Failure.toJson (f : Failure) : Json :=
  .object [("error", .str f.kind), ("status", .nat f.status.code), ("message", .str f.message)]

/-- The whole body, or why there is none. -/
def Body.toJson (b : Body) : Json :=
  match b.read with
  | .ok bytes => .ofBytes bytes
  | .error reason => .labelled "Body" reason

/-- What comes before the body. -/
def Reply.headFields (r : Reply) : List (String × Json) :=
  [("status", .nat r.status.code), ("headers", r.headers.toJson)]

def Reply.toJson (r : Reply) : Json := .object (("body", r.body.toJson) :: r.headFields)

def ContentBuffers.toJson (c : ContentBuffers) : Json :=
  .object [("len", .nat c.size), ("buffers", .nat c.count), ("empty", .bool c.isEmpty),
    ("content", .ofBytes c.toBytes)]

namespace Exchange

/-- Everything but the response, field by field. -/
def fields (x : Exchange) : List (String × Json) :=
  [("method", .str x.method.name), ("version", .str x.version.text), ("uri", .str x.uri.text),
   ("path", .str x.path), ("relative", .str x.relativePath), ("query", .textPairs x.query),
   ("headers", x.headers.toJson), ("request_id", .str x.requestId),
   ("client", .ofOption (.str ·.text) x.client), ("account", .ofOption Account.toJson x.account),
   ("in_error", .bool x.inError), ("content_available", .bool x.isContentAvailable),
   ("content", .ofOption .ofBytes x.content?), ("trace", .textPairs x.traceValues),
   ("info", .ofOption RouteInfo.toJson x.info), ("interceptors_executed", .bool x.intercepted)]

/-- Everything, field by field. -/
def allFields (x : Exchange) : List (String × Json) := x.fields ++ [("response", x.response.toJson)]

/-- What can be seen of the request. -/
def describe (x : Exchange) : Json := .object x.fields

/-- Status and content of the response, and whether the exchange failed. -/
def describeResponse (x : Exchange) : Json :=
  .object [("status", .nat x.response.status.code),
    ("content", .ofOption .ofBytes x.response.content?), ("in_error", .bool x.inError)]

end Exchange
end Gateway
