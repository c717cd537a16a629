import Gateway.Text.Utf8

/-! Certificates and private keys in their binary form: nested elements of tag, length and content.
Just as much is read as it takes to tell which public key they speak of. -/
namespace Gateway.Tls

structure Element where
  tag : UInt8
  content : Bytes
  deriving DecidableEq, Repr

namespace Element

/-- A length and what follows. Long lengths are given by a count of bytes, then those bytes. -/
def readLength : Bytes → Option (Nat × Bytes)
  | [] => none
  | b :: r =>
    if b < 0x80 then some (b.toNat, r)
    else
      let count := b.toNat - 0x80
      let digits := r.take count
      if count = 0 ∨ digits.length < count then none
      else some (digits.foldl (fun n d => n * 256 + d.toNat) 0, r.drop count)

/-- The element at the start of some bytes, and what follows. -/
def read : Bytes → Option (Element × Bytes)
  | [] => none
  | tag :: r => do
    let (length, r) ← readLength r
    if r.length < length then none else some (⟨tag, r.take length⟩, r.drop length)

/-- Elements that fill some bytes. -/
def readAll : Nat → Bytes → Option (List Element)
  | _, [] => some []
  | 0, _ => none
  | fuel + 1, b => do
    let (e, r) ← read b
    let es ← readAll fuel r
    pure (e :: es)

def children (e : Element) : Option (List Element) := readAll e.content.length e.content

/-- A single element. -/
def whole? (b : Bytes) : Option Element :=
  match read b with
  | some (e, []) => some e
  | _ => none

end Element

def integerTag : UInt8 := 0x02
def bitStringTag : UInt8 := 0x03
def octetStringTag : UInt8 := 0x04
def sequenceTag : UInt8 := 0x30

/-- Content with a number in front, of which there are zero unused bits in a whole key. -/
def bits? (e : Element) : Option Bytes :=
  if e.tag = bitStringTag ∧ e.content.head? = some 0 then some (e.content.drop 1) else none

/-- The elements of a sequence. -/
def sequence? (e : Element) : Option (List Element) :=
  if e.tag = sequenceTag then e.children else none

/-- The public key in a certificate. A version may stand first, and then follow the number, the
algorithm, the issuer, the validity, the subject and the key. -/
def certificateKey? (der : Bytes) : Option Bytes := do
  let parts ← sequence? (← Element.whole? der)
  let fields ← sequence? (← parts.head?)
  let fields := if fields.head?.any (·.tag = 0xA0) then fields.drop 1 else fields
  let key ← sequence? (← fields[5]?)
  bits? (← key[1]?)

/-- The public key in the private key of an elliptic curve, if it is given there. -/
def curveKey? (fields : List Element) : Option Bytes := do
  let last ← fields.find? (·.tag = 0xA1)
  bits? (← Element.whole? last.content)

/-- The public key of a pair of large numbers, as certificates give it. -/
def modulusKey? (fields : List Element) : Option (List Element) := do
  let n ← fields[1]?
  let e ← fields[2]?
  if n.tag = integerTag ∧ e.tag = integerTag then some [n, e] else none

/-- Whether a private key of any form belongs to a public key. -/
def fieldsMatch (fields : List Element) (known : Bytes) : Bool :=
  curveKey? fields == some known ||
    ((modulusKey? fields).isSome &&
      modulusKey? fields == ((Element.whole? known).bind sequence?))

/-- The fields of a private key, out of the envelope that names its kind if there is one. -/
def privateFields? (der : Bytes) : Option (List Element) := do
  let fields ← sequence? (← Element.whole? der)
  match fields with
  | _ :: ⟨0x30, _⟩ :: inner :: _ => sequence? (← Element.whole? inner.content)
  | _ => pure fields

/-- Whether a private key is that of a certificate. -/
def isPair (certificate key : Bytes) : Bool :=
  match certificateKey? certificate, privateFields? key with
  | some known, some fields => fieldsMatch fields known
  | _, _ => false

end Gateway.Tls
