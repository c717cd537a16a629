import Gateway.Text.Hex

/-! Sixteen-byte identifiers. Four notations are read, one is written. -/
namespace Gateway

/-- A universally unique identifier. -/
structure Uuid where
  bytes : Vector UInt8 16
  deriving DecidableEq

namespace Uuid

def ofBytes? (b : Bytes) : Option Uuid :=
  if h : b.length = 16 then some ⟨⟨b.toArray, by simpa using h⟩⟩ else none

def toBytes (u : Uuid) : Bytes := u.bytes.toList

@[simp] theorem toBytes_length (u : Uuid) : u.toBytes.length = 16 := by simp [toBytes]

@[simp] theorem ofBytes?_toBytes (u : Uuid) : ofBytes? u.toBytes = some u := by
  rcases u with ⟨⟨a, h⟩⟩
  simp [ofBytes?, toBytes, h]

/-- The high half of byte six. -/
def version (u : Uuid) : Nat := u.bytes[6].toNat / 16

/-- Byte eight: the variant, and whatever the identifier is used for. -/
def variantByte (u : Uuid) : UInt8 := u.bytes[8]

def setVariantByte (u : Uuid) (b : UInt8) : Uuid := ⟨u.bytes.set 8 b⟩

@[simp] theorem version_setVariantByte (u : Uuid) (b : UInt8) : (u.setVariantByte b).version = u.version := by
  simp [version, setVariantByte]

@[simp] theorem variantByte_setVariantByte (u : Uuid) (b : UInt8) : (u.setVariantByte b).variantByte = b := by
  simp [variantByte, setVariantByte]

/-- The two high bits of byte eight are one and zero. -/
def isStandardVariant (u : Uuid) : Bool := u.variantByte &&& 0xC0 == 0x80

/-- The sizes of the groups between hyphens, in bytes. -/
def groups : List Nat := [4, 2, 2, 2, 6]

/-- Cut a list into pieces of the given sizes. -/
def pieces {α : Type} : List Nat → List α → List (List α)
  | [], _ => []
  | n :: ns, xs => xs.take n :: pieces ns (xs.drop n)

/-- The hyphenated lower-case form. -/
def textChars (u : Uuid) : List Char :=
  List.intercalate ['-'] ((pieces groups u.toBytes).map Hex.encodeChars)

def text (u : Uuid) : String := String.ofList u.textChars

/-- Thirty-two digits. -/
def ofPlain? (cs : List Char) : Option Uuid :=
  if cs.length = 32 then (Hex.decodeChars cs).bind ofBytes? else none

/-- Thirty-six characters, hyphens between the groups. -/
def ofHyphenated? (cs : List Char) : Option Uuid :=
  if cs.length = 36 ∧ [8, 13, 18, 23].all (fun i => cs[i]? == some '-') then
    ofPlain? (((pieces [9, 5, 5, 5, 12] cs).zip [8, 4, 4, 4, 12]).flatMap fun (p, n) => p.take n)
  else none

/-- The name space of the long notation. -/
def nameSpace : List Char := ['u', 'r', 'n', ':', 'u', 'u', 'i', 'd', ':']

def parseChars (cs : List Char) : Option Uuid :=
  if cs.length = 32 then ofPlain? cs
  else if cs.length = 36 then ofHyphenated? cs
  else if cs.length = 38 then
    if cs.head? = some '\x7b' ∧ cs.getLast? = some '\x7d' then
      ofHyphenated? (cs.drop 1).dropLast
    else none
  else if cs.length = 45 then
    if (cs.take 9).map Char.toLower = nameSpace then ofHyphenated? (cs.drop 9) else none
  else none

/-- Read any of the four notations: plain, hyphenated, in braces, or under the name space. -/
def parse (s : String) : Option Uuid := parseChars s.toList

/-- Sixteen random bytes with version four and the standard variant written over them. -/
def ofRandom (random : Vector UInt8 16) : Uuid :=
  ⟨(random.set 6 (random[6] &&& 0x0F ||| 0x40)).set 8 (random[8] &&& 0x3F ||| 0x80)⟩

/-- An identifier of version four and the standard variant. -/
def IsRandom (u : Uuid) : Prop := u.version = 4 ∧ u.isStandardVariant = true

instance (u : Uuid) : Decidable u.IsRandom := inferInstanceAs (Decidable (_ ∧ _))

theorem isRandom_ofRandom (random : Vector UInt8 16) : (ofRandom random).IsRandom := by
  have fourth : ∀ b : UInt8, (b &&& 0x0F ||| 0x40).toNat / 16 = 4 := Bytes.forall_byte (by decide +kernel)
  have standard : ∀ b : UInt8, (b &&& 0x3F ||| 0x80) &&& 0xC0 = 0x80 := Bytes.forall_byte (by decide +kernel)
  constructor
  · simp only [version, ofRandom, Vector.getElem_set]
    exact fourth random[6]
  · simp [isStandardVariant, variantByte, ofRandom, standard]

end Uuid
end Gateway
