import Gateway.Text.Utf8

/-! Hexadecimal digits and bytes. -/
namespace Gateway.Hex

def digitChars : List Char := ['0', '1', '2', '3', '4', '5', '6', '7', '8', '9',
  'a', 'b', 'c', 'd', 'e', 'f']

def upperDigitChars : List Char := ['0', '1', '2', '3', '4', '5', '6', '7', '8', '9',
  'A', 'B', 'C', 'D', 'E', 'F']

/-- Lower-case digit of a number below 16. -/
def digit (n : Nat) : Char := digitChars.getD n '0'

def upperDigit (n : Nat) : Char := upperDigitChars.getD n '0'

/-- The value of a digit of either case. -/
def value? (c : Char) : Option Nat :=
  if '0' ≤ c ∧ c ≤ '9' then some (c.toNat - '0'.toNat)
  else if 'a' ≤ c ∧ c ≤ 'f' then some (c.toNat - 'a'.toNat + 10)
  else if 'A' ≤ c ∧ c ≤ 'F' then some (c.toNat - 'A'.toNat + 10)
  else none

def byteChars (b : UInt8) : List Char := [digit (b.toNat / 16), digit (b.toNat % 16)]

def encodeChars (b : Bytes) : List Char := b.flatMap byteChars

def encode (b : Bytes) : String := String.ofList (encodeChars b)

/-- Pairs of digits, nothing else. -/
def decodeChars : List Char → Option Bytes
  | [] => some []
  | [_] => none
  | h :: l :: r => do
    let hi ← value? h
    let lo ← value? l
    let rest ← decodeChars r
    pure (UInt8.ofNat (hi * 16 + lo) :: rest)

def decode (s : String) : Option Bytes := decodeChars s.toList

end Gateway.Hex
