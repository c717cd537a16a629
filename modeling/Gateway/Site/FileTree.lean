import Gateway.Text.Percent

/-! Files by their path. A directory is a path above a file. -/
namespace Gateway

/-- Why a file cannot be read. -/
inductive FileError where
  | notFound
  | isDirectory
  /-- The path goes through a file as if it were a directory. -/
  | notADirectory
  /-- What the file holds cannot be read as what it should be. -/
  | invalidData
  deriving DecidableEq, Repr

def FileError.text : FileError → String
  | notFound => "NotFound"
  | isDirectory => "IsADirectory"
  | notADirectory => "NotADirectory"
  | invalidData => "InvalidData"

structure FileTree where
  files : List (List String × Bytes) := []

namespace FileTree

/-- The segments of a path, without empty ones and single dots. A slash of its own stands in front
of a path that does not start where the gateway does. -/
def segments (path : String) : List String :=
  (if path.toList.head? = some '/' then ["/"] else []) ++
    ((path.toList.splitOn '/').map String.ofList).filter fun s => s ≠ "" && s ≠ "."

def file? (t : FileTree) (path : List String) : Option Bytes := t.files.lookup path

/-- The root is a directory, whatever it holds. -/
def isDirectory (t : FileTree) (path : List String) : Bool :=
  path.isEmpty || t.files.any fun f => path.isPrefixOf f.1 && path.length < f.1.length

def put (t : FileTree) (path : String) (content : Bytes) : FileTree :=
  let key := segments path
  ⟨t.files.filter (·.1 ≠ key) ++ [(key, content)]⟩

/-- What a path leads to. -/
inductive Entry where
  | directory (path : List String)
  | file (content : Bytes)

/-- Follow segments from a directory; two dots lead back. -/
def follow (t : FileTree) (directory : List String) : List String → Except FileError Entry
  | [] => .ok (.directory directory)
  | ".." :: rest => t.follow directory.dropLast rest
  | name :: rest =>
    let path := directory ++ [name]
    if t.isDirectory path then t.follow path rest
    else match t.file? path with
      | none => .error .notFound
      | some content => if rest = [] then .ok (.file content) else .error .notADirectory

/-- What a path leads to. Only directories have a slash after their name. -/
def find (t : FileTree) (path : String) : Except FileError Entry :=
  if path = "" then .error .notFound
  else match t.follow [] (segments path) with
    | .ok (.file content) =>
      if path.toList.getLast? = some '/' then .error .notADirectory else .ok (.file content)
    | found => found

/-- The directory a relative path names, if it is one. -/
def directory? (t : FileTree) (path : String) : Option (List String) :=
  match t.find path with
  | .ok (.directory d) => some d
  | _ => none

def read (t : FileTree) (path : String) : Except FileError Bytes :=
  match t.find path with
  | .ok (.file content) => .ok content
  | .ok (.directory _) => .error .isDirectory
  | .error e => .error e

/-- A file as text. -/
def readText (t : FileTree) (path : String) : Except FileError String :=
  match t.read path with
  | .ok content => match Bytes.text? content with
    | some text => .ok text
    | none => .error .invalidData
  | .error e => .error e

end FileTree
end Gateway
