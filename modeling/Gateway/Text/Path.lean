/-! Paths as texts: slashes at the end, and cutting by length in bytes. -/
namespace Gateway

def trimSlashChars (cs : List Char) : List Char := (cs.reverse.dropWhile (· = '/')).reverse

/-- The text without the slashes at its end. -/
def trimSlashes (s : String) : String := String.ofList (trimSlashChars s.toList)

/-- Slashes at the end are not significant, except for the root. -/
def normalizePath (path : String) : String :=
  if trimSlashChars path.toList = [] then "/" else trimSlashes path

/-- The rest of a text after its first `n` bytes, unless they end inside a character. -/
def dropBytes : Nat → List Char → Option (List Char)
  | 0, cs => some cs
  | _ + 1, [] => none
  | n + 1, c :: r => if c.utf8Size ≤ n + 1 then dropBytes (n + 1 - c.utf8Size) r else none
termination_by _ cs => cs.length

end Gateway
