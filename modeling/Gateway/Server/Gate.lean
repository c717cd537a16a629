import Gateway.Journal

/-! Admission of requests. The gate lets a limited number of requests in at once and none after it
was closed; it knows when the last one has left. -/
namespace Gateway

/-- Why a request is not let in. -/
inductive Rejection where
  | limitReached
  | draining
  deriving DecidableEq, Repr

namespace Rejection

/-- Short label. -/
def label : Rejection → String
  | limitReached => "requests-limit"
  | draining => "draining"

def failure : Rejection → Failure
  | limitReached => .rejected "too many concurrent requests"
  | draining => .rejected "server is shutting down"

/-- What operators are told. -/
def events (r : Rejection) : List Event :=
  (match r with
    | limitReached => [.warning "Request limit reached"]
    | draining => []) ++ [.metric (.rejected r.label)]

end Rejection

/-- What can be waited for at the gate. -/
inductive GateWait where
  /-- That no request is in flight, at most until a time. -/
  | drain (due : Nat)
  | termination
  deriving DecidableEq, Repr

/-- How a wait ends. -/
inductive GateNews where
  | drained (complete : Bool)
  | terminated
  deriving DecidableEq, Repr

def GateNews.toJson : GateNews → Json
  | drained complete => .bool complete
  | terminated => .str "terminated"

structure Gate where
  /-- Places that are not taken. -/
  free : Nat
  inFlight : Nat := 0
  /-- The requests that hold a place. -/
  holders : List Nat := []
  accepting : Bool := true
  terminated : Bool := false
  waiting : List (Nat × GateWait) := []
  deriving DecidableEq, Repr

namespace Gate

def ofLimit (limit : Nat) : Gate := { free := limit }

/-- The first step of an admission: is the gate open? -/
def check (g : Gate) : Except Rejection Unit :=
  if g.accepting then .ok () else .error .draining

/-- The second step of an admission: take a place. -/
def takePlace (g : Gate) (request : Nat) : Except Rejection Gate :=
  if g.free = 0 then .error .limitReached
  else .ok
    { g with free := g.free - 1, inFlight := g.inFlight + 1, holders := g.holders ++ [request] }

/-- Let a request in, if the gate is open and has a free place. -/
def letIn (g : Gate) (request : Nat) : Except Rejection Gate := do
  g.check
  g.takePlace request

/-- A request gives its place back. It has one at most once. -/
def release (g : Gate) (request : Nat) : Gate :=
  if request ∈ g.holders then
    { g with
      free := g.free + 1
      inFlight := g.inFlight - 1
      holders := g.holders.erase request }
  else g

/-- Let no one in any more. -/
def close (g : Gate) : Gate := { g with accepting := false }

/-- Call off the requests in flight. -/
def terminate (g : Gate) : Gate := { g with terminated := true }

def wait (g : Gate) (ticket : Nat) (w : GateWait) : Gate :=
  { g with waiting := g.waiting ++ [(ticket, w)] }

/-- Whether a wait is over. -/
def news? (g : Gate) (now : Nat) : GateWait → Option GateNews
  | .drain due =>
    if g.inFlight = 0 then some (.drained true)
    else if due ≤ now then some (.drained false)
    else none
  | .termination => if g.terminated then some .terminated else none

/-- Let everyone go on whose wait is over. -/
def settle (g : Gate) (now : Nat) : Gate × List (Nat × GateNews) :=
  ({ g with waiting := g.waiting.filter fun w => (g.news? now w.2).isNone },
    g.waiting.filterMap fun w => (g.news? now w.2).map (w.1, ·))

end Gate
end Gateway
