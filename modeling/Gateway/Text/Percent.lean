import Gateway.Text.Hex

/-! Percent-encoded bytes. -/
namespace Gateway

/-- The value of an ASCII hexadecimal digit. -/
def digitOf (b : UInt8) : Option Nat := Hex.value? (Char.ofNat b.toNat)

/-- Percent-decoding: a percent sign without two digits stands for itself. -/
def percentDecode : Bytes → Bytes
  | [] => []
  | [a] => [a]
  | [a, b] => [a, b]
  | a :: b :: c :: r =>
    if a = 0x25 then
      match digitOf b, digitOf c with
      | some hi, some lo => UInt8.ofNat (hi * 16 + lo) :: percentDecode r
      | _, _ => a :: percentDecode (b :: c :: r)
    else a :: percentDecode (b :: c :: r)

end Gateway
