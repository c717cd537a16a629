import Gateway.Config.Schema

/-! What can be wrong with a configuration that was read. All problems are collected. Proxies and
mounts are not looked at: a bad one only loses its own route. -/
namespace Gateway

inductive ConfigProblem where
  | noListener
  | missingTls
  | zero (field : String)
  | bufferLargerThanContent (max buffer : Nat)
  deriving DecidableEq, Repr

def ConfigProblem.message : ConfigProblem → String
  | noListener => "no listener enabled, enable http-listener or https-listener"
  | missingTls => "https-listener requires listener.tls with cert-path and key-path"
  | zero field => field ++ " must be greater than zero"
  | bufferLargerThanContent max buffer =>
    "max-content-size (" ++ toString max ++ ") is smaller than buffer-size (" ++
      toString buffer ++ ")"

namespace Config

/-- The limits that must not be zero. -/
def positiveFields (c : Config) : List (String × Nat) :=
  [("requests-limit", c.requestsLimit), ("buffer-size", c.bufferSize),
    ("max-content-size", c.maxContentSize), ("request-timeout-secs", c.requestTimeout)]

def problems (c : Config) : List ConfigProblem :=
  (if !c.listener.httpEnabled && !c.listener.httpsEnabled then [.noListener] else []) ++
  (if c.listener.httpsEnabled && c.listener.tls.isNone then [.missingTls] else []) ++
  ((c.positiveFields.filter (·.2 = 0)).map fun f => .zero f.1) ++
  (if 0 < c.bufferSize ∧ 0 < c.maxContentSize ∧ c.maxContentSize < c.bufferSize then
    [.bufferLargerThanContent c.maxContentSize c.bufferSize] else [])

end Config
end Gateway
