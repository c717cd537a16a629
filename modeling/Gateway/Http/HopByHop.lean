import Gateway.Http.Headers

/-! Headers that only concern one connection: a fixed set, and whatever the connection header
names. -/
namespace Gateway.HopByHop

def fixedNames : List String :=
  ["connection", "proxy-authenticate", "proxy-authorization", "te", "trailer",
   "transfer-encoding", "upgrade", "keep-alive", "proxy-connection"]

/-- Blanks around a listed name do not count. The values are visible text, so a blank is a space
or a tab. -/
def trimBlanks (cs : List Char) : List Char :=
  let blank := fun c => c = ' ' || c = '\t'
  ((cs.dropWhile blank).reverse.dropWhile blank).reverse

/-- The header names in one value of the connection header. -/
def namesIn (value : String) : List String :=
  (value.toList.splitOn ',').filterMap fun cs => headerName? (String.ofList (trimBlanks cs))

/-- All names listed by textual values of the connection header. -/
def listedNames (h : Headers) : List String :=
  ((h.values "connection").filterMap Bytes.visibleText?).flatMap namesIn

/-- Remove what only concerns the connection the headers came over. -/
def strip (h : Headers) : Headers := (h.removeAll (listedNames h)).removeAll fixedNames

/-- Point the host header at a backend. -/
def setHost (h : Headers) (authority : String) : Headers := h.insertText? "host" authority

end Gateway.HopByHop
