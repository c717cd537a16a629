import Gateway.Exchange.Basic
import Gateway.Journal
import Gateway.Route.Pattern

/-! Authorizers decide about secured requests. Allowers grant them, vetoers forbid them; at least
one allower has to grant and no vetoer may forbid. -/
namespace Gateway

inductive AuthorizerKind where
  | allower
  | vetoer
  deriving DecidableEq, Repr

def AuthorizerKind.text : AuthorizerKind → String
  | allower => "Allower"
  | vetoer => "Vetoer"

structure Authorizer where
  kind : AuthorizerKind
  isAllowed : Exchange → Bool

/-- A role with a path and the methods it may use below the path. -/
structure PermissionEntry where
  role : String
  path : String
  /-- None stands for every method. -/
  methods : List String := []
  deriving DecidableEq, Repr

/-- Methods that are refused below a path. -/
structure VetoEntry where
  path : String
  methods : List String
  deriving DecidableEq, Repr

/-- The role of callers that did not authenticate. -/
def unauthenticatedRole : String := "$unauthenticated"

namespace Authorizer

/-- A configured method name; letter case does not count. -/
def method? (s : String) : Option Method :=
  Method.parse? (String.ofList (s.toList.map Char.toUpper))

/-- The valid methods of a list, and an alert for each of the others. -/
def parseMethods (names : List String) : List Method × List Event :=
  (names.filterMap method?,
    (names.filter fun n => (method? n).isNone).map fun _ =>
      .warning "Ignoring invalid HTTP method")

def parsePath (path : String) : Option Pattern × List Event :=
  match Pattern.parse? path .below with
  | some p => (some p, [])
  | none => (none, [.warning "Ignoring invalid permission path"])

/-- Grants every request, or every authenticated one. -/
def full (authenticationRequired : Bool) : Authorizer where
  kind := .allower
  isAllowed x := !authenticationRequired || x.isAuthenticated

/-- A permission whose path is a pattern. -/
structure Permission where
  role : String
  path : Pattern
  methods : List Method

def Permission.ofEntry (e : PermissionEntry) : Option Permission × List Event :=
  match parsePath e.path with
  | (none, alerts) => (none, alerts)
  | (some path, _) =>
    let (methods, alerts) := parseMethods e.methods
    (some ⟨e.role, path, methods⟩, alerts)

def Permission.grants (p : Permission) (roles : List String) (x : Exchange) : Bool :=
  roles.contains p.role && p.path.covers x.path &&
    (p.methods.isEmpty || p.methods.contains x.method)

/-- The roles that count for an exchange. -/
def rolesOf (x : Exchange) : List String :=
  match x.account with
  | some a => a.roles
  | none => [unauthenticatedRole]

/-- Grants requests by role, path and method. -/
def acl (entries : List PermissionEntry) : Authorizer × List Event :=
  let built := entries.map Permission.ofEntry
  let permissions := built.filterMap (·.1)
  ({ kind := .allower
     isAllowed := fun x => permissions.any (·.grants (rolesOf x) x) },
    built.flatMap (·.2))

/-- Forbids some methods below a path. Without a valid path it forbids nothing. -/
def veto (entry : VetoEntry) : Authorizer × List Event :=
  let (path, pathAlerts) := parsePath entry.path
  let (methods, methodAlerts) := parseMethods entry.methods
  ({ kind := .vetoer
     isAllowed := fun x => match path with
      | none => true
      | some p => !(p.covers x.path && methods.contains x.method) },
    pathAlerts ++ methodAlerts)

end Authorizer
end Gateway
