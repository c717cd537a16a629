import Gateway.Http.HopByHop
import Gateway.Pipeline.Basic

/-! The end of a proxy's pipeline: lease a connection, send the request on, and stream the answer
back. The lease lives as long as the streamed body. -/
namespace Gateway

structure Proxy where
  name : String
  /-- The pool of the proxy's hosts. -/
  pool : Nat
  /-- Whether the host header names the backend. -/
  setsHost : Bool := true

namespace Proxy

/-- The address of the request at the backend. -/
def targetText (lease : Lease) (x : Exchange) : String :=
  let path := lease.basePath ++ x.relativePath
  let query := match x.uri.query with
    | some q => "?" ++ q
    | none => ""
  "http://" ++ lease.authority ++ (if path.isEmpty then "/" else path) ++ query

def target (lease : Lease) (x : Exchange) : Except Failure Uri :=
  match Uri.parse (targetText lease x) with
  | .ok uri => .ok uri
  | .error e => .error (.internal ("invalid forwarded uri: " ++ e.message))

def outgoingHeaders (p : Proxy) (lease : Lease) (h : Headers) : Headers :=
  let h := HopByHop.strip h
  if p.setsHost then HopByHop.setHost h lease.authority else h

/-- Take the answer of a backend over into the response. -/
def adopt (status : Status) (headers : Headers) (body : Body) (r : Response) : Response :=
  { status, headers := r.headers.overlay (HopByHop.strip headers), body := .stream body }

def giveBack (p : Proxy) (lease : Lease) : Handler Unit :=
  Handler.perform (.release (.lease p.pool lease.ticket))

/-- Send the request over a leased connection. -/
def forward (p : Proxy) (lease : Lease) (uri : Uri) : Handler Flow := do
  let x ← Handler.view
  let (y, body) := x.takeBody
  Handler.change fun _ => y
  let request : OutgoingRequest := ⟨x.method, uri, p.outgoingHeaders lease x.headers, body⟩
  match ← Handler.perform (.send lease request) with
  | .unreachable => do
    liftM (Job.alarm "Backend connection failed")
    Handler.perform (.reportFailure p.pool lease.ticket)
    p.giveBack lease
    throw (.backendUnavailable p.name)
  | .broken reason => do
    liftM (Job.alarm "Upstream error")
    p.giveBack lease
    throw (.backendFailed reason)
  | .answered status headers body => do
    Handler.perform (.reportSuccess p.pool lease.ticket)
    Handler.changeResponse (adopt status headers (body.guarded (.lease p.pool lease.ticket)))
    pure .proceed

def stage (p : Proxy) : Stage where
  name := "proxy"
  handle := do
    match ← Handler.perform (.lease p.pool) with
    | .error f => throw f
    | .ok lease =>
      match target lease (← Handler.view) with
      | .error f => do
        p.giveBack lease
        throw f
      | .ok uri => p.forward lease uri

end Proxy
end Gateway
