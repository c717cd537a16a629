import Gateway.Http.Uri
import Gateway.Text.Form
import Gateway.Account
import Gateway.Address
import Gateway.Route.Info
import Gateway.Exchange.Response

/-! A request and its response on their way through a pipeline. Request content is read or taken
at most once. -/
namespace Gateway

/-- A request as it comes in. -/
structure Request where
  method : Method := .get
  uri : Uri := {}
  version : HttpVersion := .http11
  headers : Headers := {}
  body : Body := {}
  client : Option SocketAddress := none

inductive RequestContent where
  /-- Not read yet. -/
  | pending (body : Body)
  | buffered (content : ContentBuffers)
  /-- Handed on, given up, or lost in a failed reading. -/
  | released

structure Exchange where
  method : Method
  uri : Uri
  version : HttpVersion
  headers : Headers
  client : Option SocketAddress
  requestId : String
  limits : ContentLimits
  content : RequestContent
  query : List (String × String)
  /-- The path with the matched pattern removed. -/
  relativePath : String
  info : Option RouteInfo := none
  account : Option Account := none
  inError : Bool := false
  /-- Response interceptors run once for an exchange. -/
  intercepted : Bool := false
  traceValues : List (String × String) := []
  /-- What the log shows of the traced headers. -/
  traceText : Option String := none
  response : Response := {}

namespace Exchange

def requestIdHeader : String := "x-request-id"

/-- Shown in place of a value that is absent. -/
def absent : String := "-"

def ofRequest (r : Request) (limits : ContentLimits) : Exchange where
  method := r.method
  uri := r.uri
  version := r.version
  headers := r.headers
  client := r.client
  requestId := (r.headers.firstText? requestIdHeader).getD absent
  limits := limits
  content := .pending r.body
  query := match r.uri.query with
    | some q => Form.decode (Bytes.ofText q)
    | none => []
  relativePath := r.uri.path

def path (x : Exchange) : String := x.uri.path

/-- The path and query that the query parameters ask for. -/
def wantedPathQuery (x : Exchange) : String :=
  if x.query = [] then x.path else x.path ++ "?" ++ Form.encode x.query

/-- Write the query parameters back into the request target. -/
def rebuildQuery (x : Exchange) : Except Failure Exchange :=
  let wanted := x.wantedPathQuery
  if x.uri.pathQueryText? = some wanted then .ok x
  else match Uri.parsePathQuery wanted with
    | .error e => .error (.internal ("invalid query string: " ++ e.message))
    | .ok p => match x.uri.withPathQuery p with
      | .error e => .error (.internal ("invalid request uri: " ++ e.message))
      | .ok uri => .ok { x with uri }

/-- A size in bytes: decimal digits, with or without a plus sign, below 2^64. -/
def sizeOfText? (s : String) : Option Nat :=
  let digits := if s.toList.head? = some '+' then s.toList.drop 1 else s.toList
  if digits ≠ [] ∧ digits.all Char.isDigit then
    let n := digits.foldl (fun n c => n * 10 + (c.toNat - '0'.toNat)) 0
    if n < Nat.pow 2 64 then some n else none
  else none

/-- The size the client declared for the content. -/
def declaredSize (x : Exchange) : Option Nat :=
  (x.headers.firstText? "content-length").bind sizeOfText?

/-- Read the request content into buffers. What is not pending is given up: after a failure, and
also when content that is already buffered is read again. -/
def readContent (x : Exchange) : Exchange × Except Failure Unit :=
  let given := { x with content := .released }
  match x.content with
  | .pending body =>
    match body.buffer x.limits x.declaredSize with
    | .ok content => ({ x with content := .buffered content }, .ok ())
    | .error f => (given, .error f)
  | _ => (given, .ok ())

def isContentAvailable (x : Exchange) : Bool :=
  match x.content with
  | .buffered _ => true
  | _ => false

def content? (x : Exchange) : Option Bytes :=
  match x.content with
  | .buffered c => some c.toBytes
  | _ => none

/-- Take the request body, buffered or not. -/
def takeBody (x : Exchange) : Exchange × Body :=
  ({ x with content := .released },
    match x.content with
    | .pending body => body
    | .buffered c => c.toBody
    | .released => .empty)

/-- Give up buffered content. -/
def releaseContent (x : Exchange) : Exchange :=
  match x.content with
  | .buffered _ => { x with content := .released }
  | _ => x

def isAuthenticated (x : Exchange) : Bool := x.account.isSome

/-- Flag the exchange as failed and answer with the description of the failure. -/
def fail (x : Exchange) (f : Failure) : Exchange :=
  { x with inError := true, response := x.response.setFailure f }

def addTraceValue (x : Exchange) (name value : String) : Exchange :=
  { x with traceValues := x.traceValues ++ [(name, value)] }

end Exchange
end Gateway
