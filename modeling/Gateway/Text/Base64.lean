import Gateway.Text.Utf8

/-! Base64: the standard alphabet with padding, read strictly, and the alphabet for names,
written without padding. -/
namespace Gateway.Base64

def shared : List Char :=
  "ABCDEFGHIJKLMNOPQRSTUVWXYZabcdefghijklmnopqrstuvwxyz0123456789".toList

def standard : List Char := shared ++ ['+', '/']

def urlSafe : List Char := shared ++ ['-', '_']

/-- The six bits a character of the standard alphabet stands for. -/
def value? (c : Char) : Option Nat :=
  if 'A' ≤ c ∧ c ≤ 'Z' then some (c.toNat - 'A'.toNat)
  else if 'a' ≤ c ∧ c ≤ 'z' then some (c.toNat - 'a'.toNat + 26)
  else if '0' ≤ c ∧ c ≤ '9' then some (c.toNat - '0'.toNat + 52)
  else if c = '+' then some 62
  else if c = '/' then some 63
  else none

/-- The last two bytes are cut off when the last group is padded twice, the last one when it is
padded once; the bits cut off must be zero. -/
def decodeChars : List Char → Option Bytes
  | [] => some []
  | [a, b, '=', '='] => do
    let x ← value? a
    let y ← value? b
    if y % 16 = 0 then some [UInt8.ofNat (x * 4 + y / 16)] else none
  | [a, b, c, '='] => do
    let x ← value? a
    let y ← value? b
    let z ← value? c
    if z % 4 = 0 then
      some [UInt8.ofNat (x * 4 + y / 16), UInt8.ofNat (y % 16 * 16 + z / 4)]
    else none
  | a :: b :: c :: d :: r => do
    let x ← value? a
    let y ← value? b
    let z ← value? c
    let w ← value? d
    let rest ← decodeChars r
    pure (UInt8.ofNat (x * 4 + y / 16) :: UInt8.ofNat (y % 16 * 16 + z / 4) ::
      UInt8.ofNat (z % 4 * 64 + w) :: rest)
  | _ => none

/-- Read padded standard Base64. -/
def decode (s : String) : Option Bytes := decodeChars s.toList

def encodeGroup (alphabet : List Char) (a b c : Nat) : List Char :=
  [a / 4, a % 4 * 16 + b / 16, b % 16 * 4 + c / 64, c % 64].map (alphabet.getD · 'A')

def encodeChars (alphabet : List Char) : Bytes → List Char
  | [] => []
  | [a] => (encodeGroup alphabet a.toNat 0 0).take 2
  | [a, b] => (encodeGroup alphabet a.toNat b.toNat 0).take 3
  | a :: b :: c :: r => encodeGroup alphabet a.toNat b.toNat c.toNat ++ encodeChars alphabet r

/-- Write bytes in the alphabet for names, without padding. -/
def encodeUrlSafe (b : Bytes) : String := String.ofList (encodeChars urlSafe b)

/-- Write padded standard Base64. -/
def encode (b : Bytes) : String :=
  let body := encodeChars standard b
  String.ofList (body ++ List.replicate ((4 - body.length % 4) % 4) '=')

end Gateway.Base64
