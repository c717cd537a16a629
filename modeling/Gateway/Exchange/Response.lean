import Gateway.Http.Headers
import Gateway.Exchange.Body

/-! The response under construction. -/
namespace Gateway

/-- What a response carries. -/
inductive ResponseBody where
  | empty
  | full (content : Bytes)
  | stream (body : Body)
  deriving DecidableEq, Inhabited

/-- The body as it is sent. -/
def ResponseBody.toBody : ResponseBody → Body
  | empty => .empty
  | full content => .ofBytes content
  | stream body => body

/-- Resources that live with the body. -/
def ResponseBody.guards : ResponseBody → List Guard
  | stream body => body.guards
  | _ => []

structure Response where
  status : Status := .ok
  headers : Headers := {}
  body : ResponseBody := .empty
  deriving DecidableEq

/-- A response as it leaves the gateway. -/
structure Reply where
  status : Status
  headers : Headers := {}
  body : Body := {}

namespace Response

def content? (r : Response) : Option Bytes :=
  match r.body with
  | .full content => some content
  | _ => none

/-- Content in one piece. Its size is not declared here. -/
def setContent (r : Response) (content : Bytes) (type : String) : Response :=
  { r with
    headers := (r.headers.remove "content-length").insertText "content-type" type
    body := .full content }

def setJson (r : Response) (status : Status) (value : Json) : Response :=
  { r with status }.setContent value.bytes "application/json"

def setFailure (r : Response) (f : Failure) : Response := r.setJson f.status f.description

def setStream (r : Response) (body : Body) : Response := { r with body := .stream body }

/-- Read a streamed body into memory. The body is taken out first, so a failure leaves none. -/
def buffer (r : Response) (limits : ContentLimits) : Response × Except Failure Unit :=
  let taken := { r with body := .empty }
  match r.body with
  | .stream body =>
    match body.buffer limits none with
    | .ok content =>
      ({ taken with
          headers := r.headers.remove "content-length"
          body := .full content.toBytes }, .ok ())
    | .error f => (taken, .error f)
  | _ => (taken, .ok ())

def toReply (r : Response) : Reply := ⟨r.status, r.headers, r.body.toBody⟩

end Response

/-- The answer to a request that failed before it had a response of its own. -/
def Failure.reply (f : Failure) : Reply := (Response.setFailure {} f).toReply

/-- A plain error answer. -/
def errorReply (status : Status) (message : String) : Reply :=
  (Response.setJson {} status (errorDescription status message)).toReply

end Gateway
