import Gateway.Exchange.Basic

/-! What the gateway tells its operators: alerts, one record per request, and measurements. -/
namespace Gateway

inductive Severity where
  | warning
  | error
  deriving DecidableEq, Repr

def Severity.text : Severity → String
  | warning => "WARN"
  | error => "ERROR"

inductive Metric where
  /-- A request was handled by the named pipeline. -/
  | handled (pipeline : String) (status : Status)
  | rejected (reason : String)
  /-- Whether the backend host cannot be connected to. -/
  | backendProblem (authority : String) (on : Bool)
  deriving DecidableEq

/-- One line of the request log. -/
structure RequestRecord where
  method : String
  path : String
  requestId : String
  uri : String
  status : Status
  client : String
  account : String
  pipeline : String
  requestHeaders : Option String := none
  responseHeaders : Option String := none
  trace : Option String := none
  deriving DecidableEq

/-- The fields of a line other than the headers. -/
def RequestRecord.fields (r : RequestRecord) : List (String × Json) :=
  [("method", .str r.method), ("uri", .str r.uri), ("status", .nat r.status.code),
    ("client", .str r.client), ("account", .str r.account), ("pipeline", .str r.pipeline)]

/-- The fields of everything that is told about one request. -/
def RequestRecord.spanFields (r : RequestRecord) : List (String × Json) :=
  [("method", .str r.method), ("path", .str r.path), ("request_id", .str r.requestId)] ++
    match r.trace with
    | some t => [("trace", .str t)]
    | none => []

inductive Event where
  | alert (severity : Severity) (text : String)
  | handled (record : RequestRecord)
  | metric (m : Metric)
  /-- A plugin's own remark. -/
  | remark (text : String)
  deriving DecidableEq

namespace Event

def warning (text : String) : Event := .alert .warning text

def error (text : String) : Event := .alert .error text

def alertText? : Event → Option String
  | .alert severity text => some (severity.text ++ " " ++ text)
  | _ => none

def record? : Event → Option RequestRecord
  | .handled r => some r
  | _ => none

def metric? : Event → Option Metric
  | .metric m => some m
  | _ => none

def remark? : Event → Option String
  | .remark text => some text
  | _ => none

end Event

/-- The name of a series: its metric and its labels in order. -/
def seriesName (metric : String) (labels : List (String × String)) : String :=
  metric ++ "\x7b" ++ ",".intercalate (labels.map fun l => l.1 ++ "=" ++ l.2) ++ "\x7d"

/-- What a measurement does to a series: add to its count or put its value in place. -/
inductive Change where
  | add (n : Nat)
  | set (n : Nat)

namespace Metric

/-- The series a measurement touches. -/
def changes : Metric → List (String × Change)
  | handled pipeline status =>
    [(seriesName "gateway_requests_total"
        [("pipeline", pipeline), ("status", toString status.code)], .add 1),
     (seriesName "gateway_request_duration_seconds" [("pipeline", pipeline)], .add 1)]
  | rejected reason =>
    [(seriesName "gateway_rejected_requests_total" [("reason", reason)], .add 1)]
  | backendProblem authority on =>
    [(seriesName "gateway_backend_problem" [("host", authority)], .set (if on then 1 else 0))]

end Metric

/-- Series with their values. -/
abbrev Readings := List (String × Nat)

namespace Readings

def apply (r : Readings) (series : String) (c : Change) : Readings :=
  let value := match c with
    | .add n => (r.lookup series).getD 0 + n
    | .set n => n
  if r.any (·.1 = series) then r.map fun e => if e.1 = series then (series, value) else e
  else r ++ [(series, value)]

/-- All series after the measurements among some events. -/
def ofEvents (events : List Event) : Readings :=
  ((events.filterMap Event.metric?).flatMap Metric.changes).foldl
    (fun r c => r.apply c.1 c.2) []

def toJson (r : Readings) : Json := .object (r.map fun e => (e.1, .nat e.2))

end Readings
end Gateway
