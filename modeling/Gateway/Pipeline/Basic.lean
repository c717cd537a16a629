import Gateway.Pipeline.Interceptor

/-! Pipelines: stages run in order until one stops or fails, then the response interceptors, then
the completion of every stage that ran, last stage first. -/
namespace Gateway

/-- What follows a stage that succeeded. -/
inductive Flow where
  | proceed
  /-- The response is complete; the remaining stages are left out. -/
  | stop
  deriving DecidableEq, Repr

structure Stage where
  name : String
  handle : Handler Flow
  /-- Runs once the chain is over. -/
  complete : ExchangeJob Unit := pure ()

structure Pipeline where
  stages : List Stage
  /-- The interceptors of the response, if the pipeline runs any. -/
  interceptors : Option InterceptorRegistry := none

namespace Pipeline

def stageNames (p : Pipeline) : List String := p.stages.map (·.name)

/-- The pipeline in one line. -/
def summary (p : Pipeline) : String :=
  "Pipeline \x7b stages: [" ++ ", ".intercalate (p.stageNames.map Text.quoted) ++
    "], response_interceptors: " ++ Plugin.boolText p.interceptors.isSome ++ " \x7d"

/-- Run stages until one stops or fails. The stages that ran come out last first. -/
def runStages (handled : List Stage) : List Stage → Exchange → Job (List Stage × Exchange)
  | [], x => pure (handled, x)
  | s :: rest, x => do
    let (outcome, x) ← s.handle.run x
    match outcome with
    | .ok .proceed => runStages (s :: handled) rest x
    | .ok .stop => pure (s :: handled, x)
    | .error f => do
      let (_, x) ← (Exchange.change (·.fail f)).run x
      pure (s :: handled, x)

/-- Run an interceptor of the response; its failure becomes the response. -/
def runResponseInterceptor (i : Interceptor) : ExchangeJob Unit := do
  match ← i.handle.run with
  | .ok () => pure ()
  | .error f => do
    liftM (Job.alarm "Response interceptor failed")
    Exchange.change (·.fail f)

/-- Run the interceptors that apply to the exchange as it stands, once for an exchange. If one of
them needs the content, the response is read into memory first. -/
def intercept (r : InterceptorRegistry) : ExchangeJob Unit := do
  let x ← get
  if x.intercepted then return
  Exchange.change fun x => { x with intercepted := true }
  let x ← get
  let applicable := (r.atPoint .response).filter (·.resolves x)
  if applicable.any (·.requiresContent) then
    match ← Handler.bufferResponse.run with
    | .ok () => applicable.forM runResponseInterceptor
    | .error f => do
      liftM (Job.warn "Cannot buffer response content for interceptors")
      Exchange.change (·.fail f)
  else applicable.forM runResponseInterceptor

/-- Handle an exchange. A failure ends up in its response. -/
def execute (p : Pipeline) (x : Exchange) : Job Exchange := do
  let (handled, x) ← runStages [] p.stages x
  let (_, x) ← (match p.interceptors with
    | some r => intercept r
    | none => pure ()).run x
  let (_, x) ← (handled.forM (·.complete)).run x
  pure x

end Pipeline
end Gateway
