import Gateway.Http.Status
import Gateway.Http.Token
import Gateway.Json

/-! Why a request is not answered as asked. Each failure has a kind, a status and one line of
text; the client is told the last two in a structured answer. -/
namespace Gateway

inductive Failure where
  | notFound (path : String)
  | contentTooLarge (limit : Nat)
  | malformedContent (reason : String)
  | authentication
  | authorization
  | backendUnavailable (proxy : String)
  | queueFull (proxy : String)
  | backendFailed (reason : String)
  | methodNotAllowed (method : Method)
  | rejected (reason : String)
  | internal (reason : String)
  deriving DecidableEq, Repr

namespace Failure

/-- Short label. -/
def kind : Failure → String
  | notFound _ => "not_found"
  | contentTooLarge _ => "content_too_large"
  | malformedContent _ => "malformed_content"
  | authentication => "authentication"
  | authorization => "authorization"
  | backendUnavailable _ => "backend_unavailable"
  | queueFull _ => "queue_full"
  | backendFailed _ => "upstream"
  | methodNotAllowed _ => "method_not_allowed"
  | rejected _ => "rejected"
  | internal _ => "internal"

def status : Failure → Status
  | notFound _ => .notFound
  | contentTooLarge _ => .payloadTooLarge
  | malformedContent _ => .badRequest
  | authentication => .unauthorized
  | authorization => .forbidden
  | backendUnavailable _ | backendFailed _ => .badGateway
  | methodNotAllowed _ => .methodNotAllowed
  | queueFull _ | rejected _ => .serviceUnavailable
  | internal _ => .internalServerError

def message : Failure → String
  | notFound path => "no resource bound to " ++ path
  | contentTooLarge limit => "request content exceeds the limit of " ++ toString limit ++ " bytes"
  | malformedContent reason => "malformed request content: " ++ reason
  | authentication => "authentication required"
  | authorization => "forbidden"
  | backendUnavailable proxy => "no backend available for " ++ proxy
  | queueFull proxy => "too many requests queued for " ++ proxy
  | backendFailed reason => "backend request failed: " ++ reason
  | methodNotAllowed method => "method " ++ method.name ++ " not allowed"
  | rejected reason => "request rejected: " ++ reason
  | internal reason => "internal error: " ++ reason

end Failure

/-- What the client is told about a status and a message. -/
def errorDescription (status : Status) (message : String) : Json :=
  .object [("http status code", .nat status.code),
    ("http status description", .str status.phrase), ("message", .str message)]

def Failure.description (f : Failure) : Json := errorDescription f.status f.message

end Gateway
