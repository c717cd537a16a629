import Gateway.Config.Decode
import Gateway.Config.Problem
import Gateway.Site.FileTree
import Gateway.Toml.Reader

/-! Configurations from texts and files. A configuration with problems is refused. -/
namespace Gateway

inductive ConfigError where
  | unreadable (path : String) (e : FileError)
  /-- The text has no meaning, or not that of a configuration. -/
  | malformed
  | proxyEntry (index : Nat)
  /-- A number is too large to be written. -/
  | unwritable
  | invalid (problems : List ConfigProblem)
  deriving DecidableEq, Repr

namespace Config

/-- The message about problems. -/
def problemsMessage (problems : List ConfigProblem) : String :=
  "validation failed: " ++ ", ".intercalate (problems.map ConfigProblem.message)

def validate (c : Config) : Except ConfigError Unit :=
  match c.problems with
  | [] => .ok ()
  | problems => .error (.invalid problems)

/-- Read a configuration out of a text. -/
def parse (text : String) : Except ConfigError Config :=
  match (Toml.parse? text).bind decode with
  | none => .error .malformed
  | some c => do
    c.validate
    pure c

/-- Read a configuration out of a file. -/
def load (files : FileTree) (path : String) : Except ConfigError Config :=
  match files.readText path with
  | .ok text => parse text
  | .error e => .error (.unreadable path e)

end Config
end Gateway
