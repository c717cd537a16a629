import Gateway.Pipeline.Basic

/-! The request log: one record for each request, with the headers if so configured. Credentials
are not shown. -/
namespace Gateway

structure RequestLogSettings where
  /-- Nothing is logged at zero; headers are shown from two on. -/
  dumpLevel : Nat := 0
  traceHeaders : List String := []

namespace RequestLog

def binaryText : String := "<binary>"

def hiddenHeaders : List String := ["authorization", "cookie", "set-cookie"]

/-- A header value as it is shown. -/
def shown (name : String) (value : Bytes) : String :=
  if name ∈ hiddenHeaders then "<redacted>" else (Bytes.visibleText? value).getD binaryText

/-- All headers in one text. -/
def dump (h : Headers) : String :=
  "; ".intercalate (h.entries.map fun e => e.1 ++ ": " ++ shown e.1 e.2)

/-- The name under which requests are counted that no route handled. -/
def unmanagedName : String := "not-managed"

def pipelineName (x : Exchange) : String :=
  match x.info with
  | some info => info.name
  | none => unmanagedName

def record (level : Nat) (x : Exchange) : RequestRecord where
  method := x.method.name
  path := x.path
  requestId := x.requestId
  uri := x.uri.text
  status := x.response.status
  client := (x.client.map (·.text)).getD Exchange.absent
  account := (x.account.map (·.id)).getD Exchange.absent
  pipeline := pipelineName x
  requestHeaders := if level ≥ 2 then some (dump x.headers) else none
  responseHeaders := if level ≥ 2 then some (dump x.response.headers) else none
  trace := x.traceText

/-- Counts the request and logs it when it is complete. -/
def stage (level : Nat) : Stage where
  name := "request-logger"
  handle := pure .proceed
  complete := do
    let x ← get
    liftM (Job.emit (.metric (.handled (pipelineName x) x.response.status)))
    if level ≥ 1 then liftM (Job.emit (.handled (record level x)))

end RequestLog
end Gateway
