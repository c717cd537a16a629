import Gateway.Pipeline.Basic
import Gateway.Site.Files
import Gateway.Text.Path

/-! The end of a static route's pipeline: files of a directory, with a welcome file for paths that
end in a slash. -/
namespace Gateway

structure Site where
  files : FileTree
  root : List String
  /-- Where the directory is mounted, without a slash at the end. -/
  mount : String
  welcomeFile : String := "index.html"

namespace Site

def ofDirectory (files : FileTree) (root : List String) (mount welcomeFile : String) : Site :=
  ⟨files, root, trimSlashes mount, welcomeFile⟩

/-- The path asked of the directory. -/
def filePath (s : Site) (relative : String) : String :=
  if relative = "" ∨ relative = "/" then "/" ++ s.welcomeFile
  else if Files.endsWithSlash relative then relative ++ s.welcomeFile
  else relative

/-- The directory does not know where it is mounted, so redirections get the mount in front. -/
def mountLocation (s : Site) (h : Headers) : Headers :=
  match h.firstText? "location" with
  | some location => h.insertText? "location" (s.mount ++ location)
  | none => h

def adopt (s : Site) (reply : Reply) (r : Response) : Response :=
  let headers := if reply.status.isRedirection then s.mountLocation reply.headers
    else reply.headers
  { status := reply.status, headers := r.headers.overlay headers, body := .stream reply.body }

/-- Answers out of the directory. Ranges and conditions in the headers of the request are left out. -/
def stage (s : Site) : Stage where
  name := "static-resources"
  handle := do
    let x ← Handler.view
    match Uri.parse (s.filePath x.relativePath) with
    | .error _ => throw (.notFound x.path)
    | .ok uri =>
      Handler.changeResponse (s.adopt (Files.serve s.files s.root x.method uri))
      pure .proceed

end Site
end Gateway
