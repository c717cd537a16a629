import Gateway.Text.Path

/-! Path patterns. A pattern matches one path, or all paths below it; a slash at the end of a
path does not count, and only whole segments match. -/
namespace Gateway

inductive MatchPolicy where
  /-- The pattern itself and everything below it. -/
  | below
  | exact
  deriving DecidableEq, Repr

def MatchPolicy.text : MatchPolicy → String
  | below => "Prefix"
  | exact => "Exact"

/-- A normalized path with the way it matches. -/
structure Pattern where
  text : String
  policy : MatchPolicy
  deriving DecidableEq, Repr

namespace Pattern

/-- Patterns start with a slash. -/
def parse? (s : String) (policy : MatchPolicy) : Option Pattern :=
  if s.toList.head? = some '/' then some ⟨normalizePath s, policy⟩ else none

/-- What is left of a path after the pattern's text. -/
def rest? (p : Pattern) (path : String) : Option (List Char) :=
  if p.text.toList.isPrefixOf path.toList then some (path.toList.drop p.text.toList.length) else none

def covers (p : Pattern) (path : String) : Bool :=
  match p.policy with
  | .exact => normalizePath path = p.text
  | .below =>
    if p.text = "/" then path.toList.head? = some '/'
    else match p.rest? path with
      | some [] => true
      | some (c :: _) => c = '/'
      | none => false

/-- The part of a path below the pattern. It is cut by length, so it means something for paths
that the pattern covers. -/
def relativePath (p : Pattern) (path : String) : String :=
  if p.text = "/" then path
  else match dropBytes p.text.utf8ByteSize path.toList with
    | some cs => String.ofList cs
    | none => ""

end Pattern
end Gateway
