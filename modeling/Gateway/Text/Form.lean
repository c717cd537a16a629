import Gateway.Text.Percent

/-! Form encoding, the notation of query strings: pairs joined by an ampersand, blanks as plus
signs, all other special bytes percent-encoded. -/
namespace Gateway.Form

/-- Bytes that are written as they are. -/
def isPlain (b : UInt8) : Bool :=
  (0x30 ≤ b && b ≤ 0x39) || (0x41 ≤ b && b ≤ 0x5A) || (0x61 ≤ b && b ≤ 0x7A) ||
    b = 0x2A || b = 0x2D || b = 0x2E || b = 0x5F

def encodeByte (b : UInt8) : List Char :=
  if isPlain b then [Char.ofNat b.toNat]
  else if b = 0x20 then ['+']
  else ['%', Hex.upperDigit (b.toNat / 16), Hex.upperDigit (b.toNat % 16)]

def encodeText (s : String) : List Char := (Bytes.ofText s).flatMap encodeByte

def encodePair (p : String × String) : List Char := encodeText p.1 ++ '=' :: encodeText p.2

/-- The written form of a list of pairs. -/
def encode (pairs : List (String × String)) : String :=
  String.ofList (List.intercalate ['&'] (pairs.map encodePair))

def plusToBlank (b : Bytes) : Bytes := b.map fun x => if x = 0x2B then 0x20 else x

def decodeText (b : Bytes) : String := Bytes.lossy (percentDecode (plusToBlank b))

/-- A piece is a name and, after its first equals sign, a value. -/
def decodePair (piece : Bytes) : String × String :=
  (decodeText (piece.takeWhile (· ≠ 0x3D)), decodeText ((piece.dropWhile (· ≠ 0x3D)).drop 1))

/-- The pairs of a query; empty pieces are skipped. -/
def decode (b : Bytes) : List (String × String) :=
  ((b.splitOn 0x26).filter (· ≠ [])).map decodePair

end Gateway.Form
