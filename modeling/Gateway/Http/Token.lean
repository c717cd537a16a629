import Gateway.Text.Utf8

/-! Method and header names share one alphabet. -/
namespace Gateway

/-- Letters, digits and fifteen marks. -/
def isTokenChar (c : Char) : Bool := c.isAlphanum || "!#$%&'*+-.^_\x60|~".toList.contains c

/-- A request method; letter case matters. -/
structure Method where
  name : String
  deriving DecidableEq, Repr, Inhabited

namespace Method

def parse? (s : String) : Option Method :=
  if s.toList ≠ [] ∧ s.toList.all isTokenChar then some ⟨s⟩ else none

def get : Method := ⟨"GET"⟩
def head : Method := ⟨"HEAD"⟩
def post : Method := ⟨"POST"⟩
def put : Method := ⟨"PUT"⟩
def delete : Method := ⟨"DELETE"⟩
def patch : Method := ⟨"PATCH"⟩
def options : Method := ⟨"OPTIONS"⟩

/-- The methods the gateway serves, in the order it announces them. -/
def served : List Method := [get, post, put, delete, patch, options]

/-- The value of the announcement. -/
def servedText : String := ", ".intercalate (served.map name)

end Method

/-- Version of the protocol a request came in. -/
inductive HttpVersion where
  | http10
  | http11
  | http2
  deriving DecidableEq, Repr

def HttpVersion.text : HttpVersion → String
  | http10 => "HTTP/1.0"
  | http11 => "HTTP/1.1"
  | http2 => "HTTP/2.0"

end Gateway
