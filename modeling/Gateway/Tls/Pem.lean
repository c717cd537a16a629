import Gateway.Text.Base64

/-! Certificates and keys in text files: sections between a line that begins and a line that ends
them, in Base64. Text outside of sections does not matter. -/
namespace Gateway.Tls

structure Section where
  label : Bytes
  content : Bytes
  deriving DecidableEq, Repr

/-- Why sections cannot be read. -/
inductive PemError where
  | missingEnd
  | malformedStart
  | malformedContent
  deriving DecidableEq, Repr

namespace Pem

def isLineEnd (b : UInt8) : Bool := b = 10 || b = 13

/-- Lines without their ends. -/
def linesOf (b : Bytes) : List Bytes := b.splitOnP isLineEnd

def dropBlanksAtEnd (b : Bytes) : Bytes := (b.reverse.dropWhile (· = 0x20)).reverse

def startMark : Bytes := Bytes.ofText "-----BEGIN "

def dashes : Bytes := Bytes.ofText "-----"

def endMark (label : Bytes) : Bytes := Bytes.ofText "-----END " ++ label ++ dashes

/-- The label in a line that begins a section. Exactly five dashes stand at its end. -/
def label? (line : Bytes) : Option Bytes :=
  let body := dropBlanksAtEnd line
  let trailer := (body.reverse.takeWhile (· = 0x2D)).length
  if trailer = 5 then some ((body.drop startMark.length).dropLast.dropLast.dropLast.dropLast.dropLast)
  else none

/-- Blanks between digits do not count, and the padding may be missing. -/
def decodeBody (b : Bytes) : Option Bytes :=
  let digits := (b.filter fun x => x ≠ 0x20 && x ≠ 9).reverse.dropWhile (· = 0x3D)
  let digits := digits.reverse
  let padding := (4 - digits.length % 4) % 4
  if padding = 3 then none
  else Base64.decodeChars (digits.map (fun x => Char.ofNat x.toNat) ++ List.replicate padding '=')

/-- A section that has begun: its label and the text so far. -/
abbrev Open := Option (Bytes × Bytes)

/-- Sections in order. What comes before a fault can still be used. -/
def scan : Open → List Bytes → List (Except PemError Section)
  | none, [] => []
  | some _, [] => [.error .missingEnd]
  | current, line :: rest =>
    if startMark.isPrefixOf line then
      match label? line with
      | some label => scan (some (label, [])) rest
      | none => [.error .malformedStart]
    else match current with
      | none => scan none rest
      | some (label, body) =>
        if (endMark label).isPrefixOf line then
          match decodeBody body with
          | some content => .ok ⟨label, content⟩ :: scan none rest
          | none => [.error .malformedContent]
        else scan (some (label, body ++ dropBlanksAtEnd line)) rest

end Pem

def sections (file : Bytes) : List (Except PemError Section) := Pem.scan none (Pem.linesOf file)

end Gateway.Tls
