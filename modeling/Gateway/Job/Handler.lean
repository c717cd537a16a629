import Gateway.Job.Basic

/-! Handlers work on one exchange. A response body that is replaced gives back what it held, so
every change of the exchange goes through `Exchange.change`. -/
namespace Gateway

/-- A job that carries an exchange along. -/
abbrev ExchangeJob := StateT Exchange Job

/-- A job on an exchange that may fail; the changes made before a failure stay. -/
abbrev Handler := ExceptT Failure ExchangeJob

namespace Exchange

/-- What the response body held before a change and does not hold after it. -/
def dropped (before after : Exchange) : List Guard :=
  before.response.body.guards.filter (· ∉ after.response.body.guards)

def releaseAll (guards : List Guard) : Job Unit := guards.forM fun g => Job.perform (.release g)

/-- Change the exchange and give back what its response body no longer holds. -/
def change (f : Exchange → Exchange) : ExchangeJob Unit := fun x => do
  let y := f x
  releaseAll (dropped x y)
  pure ((), y)

/-- Change the exchange by a step that may fail. -/
def attempt (f : Exchange → Exchange × Except Failure Unit) : Handler Unit :=
  ExceptT.mk fun x => do
    let (y, outcome) := f x
    releaseAll (dropped x y)
    pure (outcome, y)

end Exchange

namespace Handler

def run {α : Type} (h : Handler α) (x : Exchange) : Job (Except Failure α × Exchange) :=
  (ExceptT.run h).run x

def perform (e : Effect) : Handler e.Answer := liftM (Job.perform e)

def view : Handler Exchange := get

def change (f : Exchange → Exchange) : Handler Unit := liftM (Exchange.change f)

def changeResponse (f : Response → Response) : Handler Unit :=
  change fun x => { x with response := f x.response }

def changeHeaders (f : Headers → Headers) : Handler Unit :=
  change fun x => { x with headers := f x.headers }

def changeResponseHeaders (f : Headers → Headers) : Handler Unit :=
  changeResponse fun r => { r with headers := f r.headers }

def readContent : Handler Unit := Exchange.attempt Exchange.readContent

def rebuildQuery : Handler Unit := Exchange.attempt fun x =>
  match x.rebuildQuery with
  | .ok y => (y, .ok ())
  | .error f => (x, .error f)

/-- Read a streamed response into memory, within the limits of the exchange. -/
def bufferResponse : Handler Unit := Exchange.attempt fun x =>
  let (response, outcome) := x.response.buffer x.limits
  ({ x with response }, outcome)

end Handler
end Gateway
