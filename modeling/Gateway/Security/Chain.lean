import Gateway.Pipeline.Basic
import Gateway.Security.Authorizer
import Gateway.Security.Mechanism

/-! The security stage: authentication, then authorization of secured routes, then a token for
the caller. -/
namespace Gateway

/-- The enabled plugins of the security stage. -/
structure SecurityChain where
  mechanisms : List Mechanism := []
  allowers : List Authorizer := []
  vetoers : List Authorizer := []
  tokens : Option TokenManager := none

namespace SecurityChain

def enabled {α : Type} (plugins : List (Plugin α)) : List α :=
  (plugins.filter (·.enabled)).map (·.behaviour)

/-- Keep the enabled plugins. It is worth an alert when no one can authenticate or be allowed. -/
def ofPlugins (mechanisms : List (Plugin Mechanism)) (authorizers : List (Plugin Authorizer))
    (tokens : Option (Plugin TokenManager)) : SecurityChain × List Event :=
  let chain : SecurityChain :=
    { mechanisms := enabled mechanisms
      allowers := (enabled authorizers).filter (·.kind = .allower)
      vetoers := (enabled authorizers).filter (·.kind = .vetoer)
      tokens := (tokens.filter (·.enabled)).map (·.behaviour) }
  (chain,
    (if chain.allowers.isEmpty then
      [.warning ("No authorizer of type ALLOWER is enabled, " ++
        "every secured request will be forbidden")] else []) ++
    (if chain.mechanisms.isEmpty then
      [.warning "No authentication mechanism is enabled"] else []))

def hasAllowers (c : SecurityChain) : Bool := !c.allowers.isEmpty

/-- At least one allower grants and no vetoer forbids. -/
def isAllowed (c : SecurityChain) (x : Exchange) : Bool :=
  c.allowers.any (·.isAllowed x) && c.vetoers.all (·.isAllowed x)

def challenges (c : SecurityChain) : List Bytes := c.mechanisms.filterMap (·.challenge)

def addChallenges (c : SecurityChain) (h : Headers) : Headers :=
  c.challenges.foldl (fun h v => h.append "www-authenticate" v) h

/-- Tell the caller to authenticate. -/
def challenge {α : Type} (c : SecurityChain) : Handler α := do
  Handler.changeResponseHeaders c.addChallenges
  throw .authentication

/-- Ask the mechanisms in order until one of them finds credentials. -/
def authenticate (c : SecurityChain) : List Mechanism → Handler Unit
  | [] => pure ()
  | m :: rest => do
    match ← liftM m.authenticate with
    | .notAttempted => c.authenticate rest
    | .authenticated account => Handler.change fun x => { x with account := some account }
    | .failed => c.challenge

def isSecured (x : Exchange) : Bool := x.info.any (·.secured)

/-- Whether authenticating could help a caller who was not allowed. -/
def asksForCredentials (c : SecurityChain) (x : Exchange) : Bool :=
  c.hasAllowers && !x.isAuthenticated && !c.mechanisms.isEmpty

def authorize (c : SecurityChain) : Handler Unit := do
  let x ← Handler.view
  if isSecured x && !c.isAllowed x then
    if c.asksForCredentials x then c.challenge else throw .authorization

/-- Show a token and its end on a response. -/
def tokenHeaders (t : Token) (h : Headers) : Headers :=
  (h.insertText? "auth-token" t.value).insertText "auth-token-valid-until" (toString t.validUntil)

def issueToken (c : SecurityChain) : Handler Unit := do
  match c.tokens, (← Handler.view).account with
  | some manager, some account =>
    match ← liftM (manager.issue account) with
    | .ok token => Handler.changeResponseHeaders (tokenHeaders token)
    | .error _ => liftM (Job.warn "Cannot issue auth token")
  | _, _ => pure ()

def stage (c : SecurityChain) : Stage where
  name := "security"
  handle := do
    c.authenticate c.mechanisms
    c.authorize
    c.issueToken
    pure .proceed

end SecurityChain
end Gateway
