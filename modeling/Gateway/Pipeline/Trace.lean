import Gateway.Pipeline.RequestLog

/-! Traced headers: request headers that are shown in the log and sent back to the client. -/
namespace Gateway.Trace

/-- The valid names among the configured ones, and an alert for each of the others. -/
def headerNames (names : List String) : List String × List Event :=
  (names.filterMap headerName?,
    (names.filter fun n => (headerName? n).isNone).map fun _ =>
      .warning "Ignoring invalid trace header name")

/-- The traced headers of a request, each with its first value. -/
def found (names : List String) (h : Headers) : List (String × Bytes) :=
  names.filterMap fun n => (h.first? n).map (n, ·)

def valueText (v : Bytes) : String := (Bytes.visibleText? v).getD RequestLog.binaryText

def addFound (x : Exchange) (e : String × Bytes) : Exchange :=
  { x.addTraceValue e.1 (valueText e.2) with
    response := { x.response with headers := x.response.headers.insert e.1 e.2 } }

/-- Note the traced headers on the exchange and its response. -/
def traced (names : List String) (x : Exchange) : Exchange :=
  match found names x.headers with
  | [] => x
  | entries =>
    { entries.foldl addFound x with
      traceText := some (" ".intercalate (entries.map fun e => e.1 ++ "=" ++ valueText e.2)) }

def stage (names : List String) : Stage where
  name := "tracing"
  handle := do
    Handler.change (traced names)
    pure .proceed

end Gateway.Trace
