import Gateway.Json
import Gateway.Number.Double

/-! Numbers of structured answers that are not whole. -/
namespace Gateway

/-- An exponent with its sign and at least two digits. -/
def exponentChars (e : Int) : List Char :=
  let digits := Nat.toDigits 10 e.natAbs
  (if e < 0 then '-' else '+') :: (if digits.length < 2 then '0' :: digits else digits)

/-- The fewest digits that read back; positional from the fifth place after the point up to
sixteen before it. What is no number is null. -/
def Json.ofDouble (x : Double) : Json :=
  if x.isNaN || x.isInfinite then .null
  else if x.isZero then .decimal (String.ofList x.plainChars)
  else
    let (digits, point) := x.shortest
    if point > 16 || point < -4 then
      .decimal (String.ofList (x.sign ++ Double.mantissaChars digits ++ 'e' :: exponentChars (point - 1)))
    else .decimal (String.ofList x.plainChars)

end Gateway
