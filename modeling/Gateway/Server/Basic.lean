import Gateway.Config.Schema
import Gateway.Route.Table
import Gateway.Server.Gate
import Gateway.Server.Resources

/-! The server: requests are admitted, dispatched to their route, and answered in time or not at
all. A request keeps its place at the gate until its answer has been read. -/
namespace Gateway

/-- Who waits for an answer. -/
structure Visitor where
  id : Nat
  method : Method
  /-- The request id, for the answer. -/
  requestId : Option Bytes
  /-- When patience ends. -/
  deadline : Nat

/-- A request between its arrival and the end of its answer. -/
structure Visit extends Visitor where
  standing : Standing Reply

namespace Visit

def isFinished (v : Visit) : Bool :=
  match v.standing with
  | .finished _ => true
  | _ => false

def waitsFor (v : Visit) (pool ticket : Nat) : Bool :=
  match v.standing with
  | .queued p t _ => p = pool && t = ticket
  | _ => false

end Visit

namespace Reply

/-- The size of the body is declared if it is known and nothing else was declared. -/
def withLength (r : Reply) : Reply :=
  match r.body.knownSize? with
  | some n =>
    { r with headers := r.headers.insertIfAbsent "content-length" (Bytes.ofText (toString n)) }
  | none => r

def withRequestId (r : Reply) : Option Bytes → Reply
  | some id => { r with headers := r.headers.insertIfAbsent Exchange.requestIdHeader id }
  | none => r

/-- Answers to requests for headers have no body. -/
def withoutBodyFor (r : Reply) (method : Method) : Reply :=
  if method = .head then { r with body := .empty } else r

/-- The answer to a request that took too long. -/
def timeout : Reply := { status := .requestTimeout }

/-- The answer to a method the gateway does not serve. -/
def methodRefused (method : Method) : Reply :=
  let r := (Failure.methodNotAllowed method).reply
  { r with headers := r.headers.insertText "allow" Method.servedText }

def guarded (r : Reply) (g : Guard) : Reply := { r with body := r.body.guarded g }

end Reply

namespace Visitor

/-- The answer as it is sent. -/
def sealed (v : Visitor) (r : Reply) : Reply :=
  (r.withRequestId v.requestId).withLength.withoutBodyFor v.method

/-- A visit whose answer is there. -/
def answered (v : Visitor) (r : Reply) : Visit := ⟨v, .finished (v.sealed r)⟩

/-- A visit that holds a place. The place stays taken until the answer is read. -/
def standingAt (v : Visitor) : Standing Reply → Visit
  | .finished reply => v.answered (reply.guarded .admission)
  | standing => ⟨v, standing⟩

end Visitor

structure Server where
  table : RoutingTable
  limits : ContentLimits := {}
  /-- Milliseconds until an answer has to be there. -/
  patience : Nat := 60000
  gate : Gate
  resources : Resources := {}
  /-- Requests that are being handled, and answers that wait to be read. -/
  visits : List Visit := []
  arrivals : Nat := 0
  requestIdsDrawn : Nat := 0

namespace Server

def ofConfig (c : Config) (table : RoutingTable) (resources : Resources) : Server where
  table := table
  limits := c.limits
  patience := c.requestTimeout * 1000
  gate := .ofLimit c.requestsLimit
  resources := resources

/-- Give the request an id unless it has one. -/
def identify (s : Server) (env : Surroundings) (r : Request) : Server × Request :=
  if r.headers.has Exchange.requestIdHeader then (s, r)
  else
    let id := env.requestId s.requestIdsDrawn
    ({ s with requestIdsDrawn := s.requestIdsDrawn + 1 },
      { r with headers := r.headers.insertText Exchange.requestIdHeader id })

/-- Run the pipeline of the route, or of none. -/
def dispatch (s : Server) (r : Request) : Job Reply := do
  let x := Exchange.ofRequest r s.limits
  let x ← match s.table.resolve x.path with
    | some route => route.pipeline.execute { x with relativePath := route.relativePath x.path }
    | none => s.table.notManaged.execute x
  pure x.response.toReply

/-- What becomes of a request at the door: an answer right away, or a place. -/
inductive Admission where
  | refused (reply : Reply)
  | admitted

/-- Let the request in. A method that is not served gives its place back at once. -/
def letIn (s : Server) (id : Nat) (method : Method) : Server × Admission :=
  match s.gate.letIn id with
  | .error rejection =>
    ({ s with resources := s.resources.note rejection.events }, .refused rejection.failure.reply)
  | .ok gate =>
    if method ∈ Method.served then ({ s with gate }, .admitted)
    else ({ s with gate := gate.release id }, .refused (.methodRefused method))

def putVisit (s : Server) (v : Visit) : Server :=
  { s with visits := s.visits.map fun w => if w.id = v.id then v else w }

/-- Run what is left of a request. -/
def run (env : Surroundings) (s : Server) (v : Visitor) (rest : Job Reply) : Server × Visit :=
  let (resources, standing) := s.resources.run env v.id rest
  ({ s with resources }, v.standingAt standing)

def proceed (env : Surroundings) (s : Server) (v : Visit) (rest : Job Reply) : Server :=
  let (s, v) := s.run env v.toVisitor rest
  s.putVisit v

/-- The answer to a request that was called off. -/
def calledOff : Job Reply := do
  Job.warn "Request terminated by shutdown"
  pure Rejection.draining.failure.reply

/-- What is done for a request that was let in. -/
def job (s : Server) (r : Request) : Job Reply :=
  if s.gate.terminated then calledOff else s.dispatch r

def addVisit (s : Server) (v : Visit) : Server :=
  { s with visits := s.visits ++ [v], arrivals := v.id + 1 }

/-- A request arrives. It is known by its number from now on. -/
def arrive (env : Surroundings) (s : Server) (r : Request) : Server × Nat :=
  let (s, r) := s.identify env r
  let v : Visitor :=
    { id := s.arrivals
      method := r.method
      requestId := r.headers.first? Exchange.requestIdHeader
      deadline := s.resources.now + s.patience }
  match s.letIn v.id r.method with
  | (s, .refused reply) => (s.addVisit (v.answered reply), v.id)
  | (s, .admitted) =>
    let (s, visit) := s.run env v (s.job r)
    (s.addVisit visit, v.id)

/-- Give back what an answer held. -/
def release (s : Server) (id : Nat) (guards : List Guard) : Server :=
  { s with
    gate := if Guard.admission ∈ guards then s.gate.release id else s.gate
    resources := s.resources.releaseAll guards }

/-- Let a request go, answered or not. -/
def dismiss (s : Server) (v : Visit) : Server :=
  let s := { s with visits := s.visits.filter (·.id ≠ v.id) }
  match v.standing with
  | .finished reply => s.release v.id reply.body.guards
  | _ => { s with gate := s.gate.release v.id, resources := s.resources.abandon v.id }

def visit? (s : Server) (id : Nat) : Option Visit := s.visits.find? (·.id = id)

/-- The answer to a request, if it is there. -/
def reply? (s : Server) (id : Nat) : Option Reply :=
  (s.visit? id).bind fun v => match v.standing with
    | .finished reply => some reply
    | _ => none

/-- A request that took too long loses all it has and is answered so. -/
def giveUp (s : Server) (v : Visit) : Server :=
  { s with gate := s.gate.release v.id, resources := s.resources.abandon v.id }.putVisit
    (v.answered .timeout)

/-- Call off a request. Its answer keeps the place. -/
def callOff (env : Surroundings) (s : Server) (v : Visit) : Server :=
  { s with resources := s.resources.abandon v.id }.proceed env v calledOff

/-- Call off all requests in flight. -/
def terminate (env : Surroundings) (s : Server) : Server :=
  (s.visits.filter (!·.isFinished)).foldl (callOff env) { s with gate := s.gate.terminate }

end Server
end Gateway
