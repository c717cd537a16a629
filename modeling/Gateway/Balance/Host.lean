import Gateway.Http.Uri
import Gateway.Text.Path

/-! Backend hosts: their budget of connections and their health. A host whose connection failed
is left alone until its retry delay has passed; then one request tests it. -/
namespace Gateway

inductive HostState where
  | healthy
  | problem
  /-- One request is testing whether the host is back. -/
  | probing
  deriving DecidableEq, Repr

def HostState.text : HostState → String
  | healthy => "Healthy"
  | problem => "Problem"
  | probing => "Probing"

/-- Why an address cannot be a backend. -/
inductive BackendError where
  | unsupportedScheme (uri : String)
  | missingAuthority (uri : String)
  deriving DecidableEq

def BackendError.message : BackendError → String
  | unsupportedScheme uri =>
    "unsupported scheme in " ++ uri ++ ", only http backends are supported"
  | missingAuthority uri => "missing host in " ++ uri

structure Host where
  uri : Uri
  authority : String
  /-- The path of the address without slashes at its end. -/
  basePath : String
  /-- Connections allowed at once. -/
  budget : Nat
  active : Nat := 0
  state : HostState := .healthy
  /-- When the last connection failure was reported, in milliseconds. -/
  problemSince : Nat := 0
  deriving DecidableEq

namespace Host

/-- A healthy idle host at a web address. -/
def ofUri (uri : Uri) (budget : Nat) : Except BackendError Host :=
  if uri.scheme ≠ some "http" then .error (.unsupportedScheme uri.text)
  else match uri.authority with
    | none => .error (.missingAuthority uri.text)
    | some authority =>
      .ok { uri, authority, basePath := trimSlashes uri.path, budget := max budget 1 }

/-- Free connections. -/
def available (h : Host) : Nat := h.budget - h.active

def isHealthy (h : Host) : Bool := h.state = .healthy

/-- A problem host whose retry delay has passed. -/
def isDue (h : Host) (now retry : Nat) : Bool := h.state = .problem && now - h.problemSince ≥ retry

/-- Whether waiting for the host could ever yield a connection. -/
def isUsable (h : Host) (now retry : Nat) : Bool := h.state ≠ .problem || h.isDue now retry

def claim (h : Host) : Host := { h with active := h.active + 1 }

def free (h : Host) : Host := { h with active := h.active - 1 }

def beginProbe (h : Host) : Host := { h with state := .probing }

/-- Give up a test without an outcome; the retry delay keeps running. -/
def abandonProbe (h : Host) : Host :=
  if h.state = .probing then { h with state := .problem } else h

def markProblem (h : Host) (now : Nat) : Host :=
  { h with state := .problem, problemSince := now }

def markHealthy (h : Host) : Host := { h with state := .healthy }

end Host
end Gateway
