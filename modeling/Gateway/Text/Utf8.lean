/-! Bytes on the wire and the text they carry. Header values, bodies and percent-decoded
fragments are bytes; a text is read from them strictly or with replacement characters. -/
namespace Gateway

/-- Bytes in order. -/
abbrev Bytes := List UInt8

namespace Bytes

/-- What holds of the bytes of all numbers below 256 holds of every byte. -/
theorem forall_byte {p : UInt8 → Prop} (each : ∀ n < 256, p (UInt8.ofNat n)) (b : UInt8) : p b := by
  have found := each b.toNat b.toNat_lt
  rwa [UInt8.ofNat_toNat] at found

/-- The UTF-8 form of a text. -/
def ofText (s : String) : Bytes := s.toByteArray.data.toList

/-- The text with this UTF-8 form, if there is one. -/
def text? (b : Bytes) : Option String := String.fromUTF8? ⟨b.toArray⟩

@[simp] theorem text?_ofText (s : String) : text? (ofText s) = some s := by
  simp [text?, ofText, String.fromUTF8?, String.fromUTF8, s.isValidUTF8]

theorem ofText_length (s : String) : (ofText s).length = s.utf8ByteSize := by
  rfl

/-- A byte that continues a character. -/
def isTail (b : UInt8) : Bool := 0x80 ≤ b && b ≤ 0xBF

/-- What a first byte demands: the range of the second byte and the number of tail bytes
after it. No first byte is below 0xC2 or above 0xF4. -/
def lead (a : UInt8) : Option (UInt8 × UInt8 × Nat) :=
  if 0xC2 ≤ a && a ≤ 0xDF then some (0x80, 0xBF, 0)
  else if a = 0xE0 then some (0xA0, 0xBF, 1)
  else if a = 0xED then some (0x80, 0x9F, 1)
  else if 0xE1 ≤ a && a ≤ 0xEF then some (0x80, 0xBF, 1)
  else if a = 0xF0 then some (0x90, 0xBF, 2)
  else if 0xF1 ≤ a && a ≤ 0xF3 then some (0x80, 0xBF, 2)
  else if a = 0xF4 then some (0x80, 0x8F, 2)
  else none

/-- The bits of a character, high to low, from its first byte and its tail. -/
def scalar (a : UInt8) (tail : Bytes) : Char :=
  let top := match tail.length with
    | 1 => a.toNat % 0x20
    | 2 => a.toNat % 0x10
    | _ => a.toNat % 0x08
  Char.ofNat (tail.foldl (fun n b => n * 0x40 + b.toNat % 0x40) top)

/-- The character at the start of `a :: r` and how much of `r` it takes. The longest beginning
of a character that goes wrong counts as one replacement character. -/
def decodeFirst (a : UInt8) (r : Bytes) : Char × Nat :=
  if a < 0x80 then (Char.ofNat a.toNat, 0)
  else match lead a, r with
    | some (lo, hi, more), b :: rest =>
      if lo ≤ b && b ≤ hi then
        let tail := (rest.take more).takeWhile isTail
        if tail.length = more then (scalar a (b :: tail), more + 1)
        else ('\uFFFD', tail.length + 1)
      else ('\uFFFD', 0)
    | _, _ => ('\uFFFD', 0)

/-- Read bytes as text; what is not UTF-8 becomes U+FFFD. -/
def lossyChars : Bytes → List Char
  | [] => []
  | a :: r =>
    let (c, used) := decodeFirst a r
    c :: lossyChars (r.drop used)
termination_by b => b.length
decreasing_by simp only [List.length_drop, List.length_cons]; omega

def lossy (b : Bytes) : String := String.ofList (lossyChars b)

/-- The sum of the byte values. -/
def sum (b : Bytes) : Nat := b.foldl (fun n x => n + x.toNat) 0

/-- Printable ASCII and tab: the values that may be read as text. -/
def isVisible (b : Bytes) : Bool := b.all fun x => x = 9 || (0x20 ≤ x && x ≤ 0x7E)

/-- The text of a value that holds printable ASCII and tabs only. -/
def visibleText? (b : Bytes) : Option String := if isVisible b then text? b else none

end Bytes
end Gateway
