import Gateway.Job.Handler

/-! Authentication mechanisms look for credentials of their own kind in a request. -/
namespace Gateway

/-- What a mechanism makes of a request. -/
inductive AuthOutcome where
  | authenticated (account : Account)
  /-- The request has no credentials for the mechanism. -/
  | notAttempted
  /-- Credentials were there and wrong. -/
  | failed
  deriving DecidableEq

structure Mechanism where
  authenticate : ExchangeJob AuthOutcome
  /-- What a caller is told who should authenticate. -/
  challenge : Option Bytes := none

/-- Where tokens come from. -/
structure TokenManager where
  verify : String → Job (Option Account)
  issue : Account → Job (Except String Token)

/-- Tokens out of the gateway's own store. -/
def TokenManager.ofStore : TokenManager where
  verify value := Job.perform (.verifyToken value)
  issue account := do pure (.ok (← Job.perform (.issueToken account)))

/-- A user of basic authentication. -/
structure UserEntry where
  userid : String
  password : String
  roles : List String := []
  deriving DecidableEq, Repr

namespace Mechanism

def isBlank (c : Char) : Bool := c = ' ' || c = '\t'

def trimBlanks (cs : List Char) : List Char :=
  ((cs.dropWhile isBlank).reverse.dropWhile isBlank).reverse

/-- The rest of a text after the first `c`, and what stands before it. -/
def splitAtFirst (c : Char) (cs : List Char) : Option (List Char × List Char) :=
  match cs.dropWhile (· ≠ c) with
  | [] => none
  | _ :: rest => some (cs.takeWhile (· ≠ c), rest)

/-- What follows the scheme in a credentials value, if the scheme is the given one. -/
def credentialsIn? (scheme value : String) : Option String :=
  match splitAtFirst ' ' value.toList with
  | some (given, rest) =>
    if given.map Char.toLower = scheme.toList.map Char.toLower then
      some (String.ofList (trimBlanks rest))
    else none
  | none => none

/-- The credentials of a request for a scheme. -/
def credentials? (x : Exchange) (scheme : String) : Option String :=
  (x.headers.firstText? "authorization").bind (credentialsIn? scheme)

/-- The name and password in decoded credentials. -/
def userAndPassword? (encoded : String) : Option (String × String) := do
  let bytes ← Base64.decode encoded
  let text ← Bytes.text? bytes
  let (user, password) ← splitAtFirst ':' text.toList
  pure (String.ofList user, String.ofList password)

/-- The last user of a name counts. -/
def findUser (users : List UserEntry) (userid : String) : Option UserEntry :=
  users.reverse.find? (·.userid = userid)

def verifyBasic (users : List UserEntry) (encoded : String) : AuthOutcome :=
  match userAndPassword? encoded with
  | none => .failed
  | some (userid, password) =>
    match findUser users userid with
    | some u => if u.password = password then .authenticated (.withRoles userid u.roles) else .failed
    | none => .failed

/-- Name and password of a configured user. -/
def basic (users : List UserEntry) : Mechanism where
  authenticate := do
    match credentials? (← get) "Basic" with
    | some encoded => pure (verifyBasic users encoded)
    | none => pure .notAttempted
  challenge := some (Bytes.ofText "Basic realm=\"gatehouse\"")

/-- Tokens of a token manager. -/
def bearer (tokens : TokenManager) : Mechanism where
  authenticate := do
    match credentials? (← get) "Bearer" with
    | some value =>
      match ← liftM (tokens.verify value) with
      | some account => pure (.authenticated account)
      | none => pure .failed
    | none => pure .notAttempted
  challenge := some (Bytes.ofText "Bearer realm=\"gatehouse\"")

end Mechanism
end Gateway
