import Gateway.Http.Uri
import Gateway.Exchange.Response
import Gateway.Site.FileTree

/-! Answers out of a directory: files with their type, redirections to directories, and nothing
outside of the directory. -/
namespace Gateway.Files

/-- When every file was last changed. -/
def lastModified : String := "Mon, 01 Jan 2024 00:00:00 GMT"

/-- The part of a file name after its last dot. A name that is all extension has none. -/
def extension (name : String) : String :=
  match (name.toList.reverse.takeWhile (· ≠ '.'), name.toList.reverse.dropWhile (· ≠ '.')) with
  | (ext, '.' :: _ :: _) => String.ofList (ext.reverse.map Char.toLower)
  | _ => ""

def contentType (name : String) : String :=
  match extension name with
  | "html" | "htm" => "text/html"
  | "css" => "text/css"
  | "json" => "application/json"
  | "txt" => "text/plain"
  | _ => "application/octet-stream"

/-- The names a decoded path goes through. Paths that start over or go up are refused. -/
def components? (path : String) : Option (List String) :=
  let names := FileTree.segments path
  if path.toList.head? = some '/' ∨ ".." ∈ names then none else some names

/-- The path a request names below the directory, percent-decoded. -/
def decodedPath? (path : String) : Option (List String) := do
  let below := String.ofList (path.toList.dropWhile (· = '/'))
  let text ← Bytes.text? (percentDecode (Bytes.ofText below))
  components? text

def endsWithSlash (path : String) : Bool := path.toList.getLast? == some '/'

def emptyReply (status : Status) : Reply := { status }

def fileHeaders (name : String) (content : Bytes) : Headers :=
  (((Headers.empty.insertText "content-type" (contentType name)).insertText "accept-ranges"
    "bytes").insertText "last-modified" lastModified).insertText "content-length"
      (toString content.length)

/-- A file, streamed, or without its content if only the head was asked for. -/
def fileReply (t : FileTree) (method : Method) (path : List String) : Reply :=
  match t.file? path with
  | none => emptyReply .notFound
  | some content =>
    { status := .ok
      headers := fileHeaders (path.getLastD "") content
      body := if method = .head then .empty else .stream (if content = [] then [] else [content]) }

/-- A name longer than 255 bytes in a directory that exists cannot be looked up. -/
def hasLongName (t : FileTree) (directory : List String) : List String → Bool
  | [] => false
  | n :: rest => t.isDirectory directory &&
      (n.utf8ByteSize > 255 || hasLongName t (directory ++ [n]) rest)

/-- Names that cannot even be looked up. -/
def isUnspeakable (t : FileTree) (root names : List String) : Bool :=
  names.any (·.toList.contains '\x00') || hasLongName t root names

/-- Answer a request out of the directory `root`. A directory is redirected to its path with a
slash, and then stands for its index file. The headers of the request are left out, and with them ranges
and conditions, so a file is always answered as a whole. -/
def serve (t : FileTree) (root : List String) (method : Method) (uri : Uri) : Reply :=
  if method ≠ .get ∧ method ≠ .head then
    { status := .methodNotAllowed, headers := Headers.empty.insertText "allow" "GET,HEAD" }
  else match decodedPath? uri.path with
    | none => emptyReply .notFound
    | some names =>
      let path := root ++ names
      if isUnspeakable t root names then emptyReply .internalServerError
      else if t.isDirectory path then
        if endsWithSlash uri.path then fileReply t method (path ++ ["index.html"])
        else
          { status := .temporaryRedirect
            headers := Headers.empty.insertText "location"
              { uri with path := uri.path ++ "/" }.text }
      else if endsWithSlash uri.path then emptyReply .notFound
      else fileReply t method path

end Gateway.Files
