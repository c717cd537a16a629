import Gateway.Text.Utf8

/-! Request targets and backend addresses: scheme, authority, path and query. Reading checks
the alphabet of each part and drops a fragment. -/
namespace Gateway

/-- Why a text is no request target. -/
inductive UriError where
  | tooLong
  | empty
  | invalidCharacter
  | invalidAuthority
  | invalidFormat
  | schemeTooLong
  | pathWithoutSlash
  | schemeMissing
  deriving DecidableEq, Repr

def UriError.message : UriError → String
  | tooLong => "uri too long"
  | empty => "empty string"
  | invalidCharacter => "invalid uri character"
  | invalidAuthority => "invalid authority"
  | invalidFormat => "invalid format"
  | schemeTooLong => "scheme too long"
  | pathWithoutSlash => "path does not start with slash"
  | schemeMissing => "scheme missing"

/-- A path with an optional query. -/
structure PathQuery where
  path : String
  query : Option String := none
  deriving DecidableEq, Repr

def PathQuery.text (p : PathQuery) : String :=
  match p.query with
  | some q => p.path ++ "?" ++ q
  | none => p.path

/-- A parsed request target. One with an authority and no scheme has an empty path. -/
structure Uri where
  scheme : Option String := none
  authority : Option String := none
  path : String := "/"
  query : Option String := none
  deriving DecidableEq, Repr

namespace Uri

/-- The longest text read, in bytes. -/
def maxLength : Nat := 65534

def maxSchemeLength : Nat := 64

def isPathChar (c : Char) : Bool :=
  let n := c.toNat
  n = 0x21 || (0x24 ≤ n && n ≤ 0x3B) || n = 0x3D || (0x40 ≤ n && n ≤ 0x5F) ||
    (0x61 ≤ n && n ≤ 0x7E) || c = '"' || 0x80 ≤ n

def isQueryChar (c : Char) : Bool :=
  let n := c.toNat
  n = 0x21 || (0x24 ≤ n && n ≤ 0x3B) || n = 0x3D || (0x3F ≤ n && n ≤ 0x7E) || 0x80 ≤ n

def isAuthorityChar (c : Char) : Bool :=
  c.isAlphanum || "!$&'()*+,-.:;=@[]_~".toList.contains c

def isSchemeChar (c : Char) : Bool := c.isAlphanum || c = '+' || c = '-' || c = '.'

/-- Split a path from its query at the first question mark; a number sign ends both. An empty
path is the root. -/
def scanPathQuery (cs : List Char) : Except UriError PathQuery :=
  let body := cs.takeWhile (· ≠ '#')
  let path := body.takeWhile (· ≠ '?')
  if !path.all isPathChar then .error .invalidCharacter
  else
    let shown := if path = [] then "/" else String.ofList path
    match body.dropWhile (· ≠ '?') with
    | [] => .ok ⟨shown, none⟩
    | _ :: query =>
      if query.all isQueryChar then .ok ⟨shown, some (String.ofList query)⟩
      else .error .invalidCharacter

/-- What has been seen of an authority. Colons and percent signs count from the last at sign or
closing bracket. -/
structure AuthorityScan where
  colons : Nat := 0
  opened : Bool := false
  closed : Bool := false
  percent : Bool := false
  endsWithAt : Bool := false

def AuthorityScan.step (s : AuthorityScan) (c : Char) : Except UriError AuthorityScan :=
  let s := { s with endsWithAt := c = '@' }
  if c = ':' then
    if s.colons ≥ 8 then .error .invalidAuthority else .ok { s with colons := s.colons + 1 }
  else if c = '[' then
    if s.percent || s.opened then .error .invalidAuthority else .ok { s with opened := true }
  else if c = ']' then
    if !s.opened || s.closed then .error .invalidAuthority
    else .ok { s with closed := true, colons := 0, percent := false }
  else if c = '@' then .ok { s with colons := 0, percent := false }
  else if c = '%' then .ok { s with percent := true }
  else if isAuthorityChar c then .ok s
  else .error .invalidCharacter

def AuthorityScan.isComplete (s : AuthorityScan) : Bool :=
  s.opened == s.closed && s.colons ≤ 1 && !s.endsWithAt && !s.percent

/-- Characters that end an authority. -/
def endsAuthority (c : Char) : Bool := c = '/' || c = '?' || c = '#'

/-- The authority at the start of a text, and the rest. -/
def scanAuthority (cs : List Char) : Except UriError (List Char × List Char) :=
  if cs = [] then .error .empty
  else
    let authority := cs.takeWhile fun c => !endsAuthority c
    match authority.foldlM AuthorityScan.step {} with
    | .error e => .error e
    | .ok s =>
      if s.isComplete then .ok (authority, cs.dropWhile fun c => !endsAuthority c)
      else .error .invalidAuthority

/-- The scheme of a text and what follows its separator. The two web schemes are recognised in
any letter case and kept in lower case. -/
def splitScheme (cs : List Char) : Except UriError (Option (String × List Char)) :=
  if (cs.take 7).map Char.toLower = "http://".toList then .ok (some ("http", cs.drop 7))
  else if (cs.take 8).map Char.toLower = "https://".toList then .ok (some ("https", cs.drop 8))
  else
    let scheme := cs.takeWhile isSchemeChar
    let rest := cs.dropWhile isSchemeChar
    if cs.length > 3 ∧ rest.take 3 = "://".toList then
      if scheme.length > maxSchemeLength then .error .schemeTooLong
      else .ok (some (String.ofList scheme, rest.drop 3))
    else .ok none

def ofAuthority (cs : List Char) : Except UriError Uri := do
  let (authority, rest) ← scanAuthority cs
  if rest = [] then
    pure { authority := some (String.ofList authority), path := "" }
  else .error .invalidFormat

def ofPathQuery (cs : List Char) : Except UriError Uri := do
  let p ← scanPathQuery cs
  pure { path := p.path, query := p.query }

def ofAbsolute (scheme : String) (cs : List Char) : Except UriError Uri := do
  let (authority, rest) ← scanAuthority cs
  if authority = [] then .error .invalidFormat
  else
    let p ← scanPathQuery rest
    pure ⟨some scheme, some (String.ofList authority), p.path, p.query⟩

/-- Read a request target in any of its forms. -/
def parse (s : String) : Except UriError Uri :=
  if s.utf8ByteSize > maxLength then .error .tooLong
  else match s.toList with
    | [] => .error .empty
    | ['*'] => .ok { path := "*" }
    | '/' :: r => ofPathQuery ('/' :: r)
    | [c] => if endsAuthority c then .error .invalidCharacter else ofAuthority [c]
    | cs => do
      match ← splitScheme cs with
      | some (scheme, rest) => ofAbsolute scheme rest
      | none => ofAuthority cs

/-- Read a path and query that stand alone. -/
def parsePathQuery (s : String) : Except UriError PathQuery :=
  match s.toList with
  | [] => .error .empty
  | cs =>
    if s.utf8ByteSize > maxLength then .error .tooLong
    else if cs = ['*'] then .ok ⟨"*", none⟩
    else if cs.head?.any endsAuthority then scanPathQuery cs
    else .error .pathWithoutSlash

/-- Whether the target has a path of its own; an authority alone has none. -/
def hasPath (u : Uri) : Bool := u.scheme.isSome || u.authority.isNone

/-- Put another path and query in place. -/
def withPathQuery (u : Uri) (p : PathQuery) : Except UriError Uri :=
  if u.hasPath then .ok { u with path := p.path, query := p.query } else .error .schemeMissing

/-- The path and query together, if the target has them. -/
def pathQueryText? (u : Uri) : Option String :=
  if u.hasPath then some (PathQuery.text ⟨u.path, u.query⟩) else none

def text (u : Uri) : String :=
  let scheme := match u.scheme with
    | some s => s ++ "://"
    | none => ""
  scheme ++ u.authority.getD "" ++ PathQuery.text ⟨u.path, u.query⟩

end Uri
end Gateway
