/-! Floating-point numbers of 64 bits: the nearest one to a decimal, and the shortest decimal that
stands for one. Both work on exact ratios of natural numbers. -/
namespace Gateway

/-- A floating-point number by its bits: a sign, eleven bits of exponent, fifty-two of fraction. -/
structure Double where
  bits : UInt64
  deriving DecidableEq, Repr, Inhabited

namespace Double

def isNegative (x : Double) : Bool := x.bits.toNat ≥ Nat.pow 2 63

def exponentBits (x : Double) : Nat := x.bits.toNat / Nat.pow 2 52 % 2048

def fraction (x : Double) : Nat := x.bits.toNat % Nat.pow 2 52

def isNaN (x : Double) : Bool := x.exponentBits = 2047 && x.fraction ≠ 0

def isInfinite (x : Double) : Bool := x.exponentBits = 2047 && x.fraction = 0

def isZero (x : Double) : Bool := x.bits.toNat % Nat.pow 2 63 = 0

/-- Sign and magnitude put together. -/
def ofMagnitude (negative : Bool) (magnitude : Nat) : Double :=
  ⟨UInt64.ofNat ((if negative then Nat.pow 2 63 else 0) + magnitude)⟩

/-- The bits of infinity, and the least bits that are no number. -/
def infinityBits : Nat := 2047 * Nat.pow 2 52

def nan : Double := ⟨UInt64.ofNat (infinityBits + Nat.pow 2 51)⟩

def infinity (negative : Bool) : Double := ofMagnitude negative infinityBits

/-- The whole number nearest to a ratio; a half goes to the even neighbour. -/
def roundRatio (n d : Nat) : Nat :=
  let q := n / d
  let r := n % d
  if 2 * r < d then q else if 2 * r > d then q + 1 else q + q % 2

/-- A ratio times a power of two, as a ratio. -/
def scale (n d : Nat) (power : Int) : Nat × Nat :=
  if power ≥ 0 then (n * Nat.pow 2 power.toNat, d) else (n, d * Nat.pow 2 (-power).toNat)

/-- The power of two at or below a positive ratio. -/
def binaryOrder (n d : Nat) : Int :=
  let e : Int := n.log2 - d.log2
  let (a, b) := scale n d (-e)
  if a ≥ b then e else e - 1

/-- The nearest number to a ratio. The magnitude counts numbers from zero upwards, so a fraction
that rounds up to its end carries into the exponent. -/
def ofRatio (negative : Bool) (n d : Nat) : Double :=
  if n = 0 then ofMagnitude negative 0
  else
    let unit := max (binaryOrder n d - 52) (-1074)
    let (a, b) := scale n d (-unit)
    let magnitude := (unit + 1074).toNat * Nat.pow 2 52 + roundRatio a b
    ofMagnitude negative (min magnitude infinityBits)

/-- The nearest number to `mantissa` times a power of ten. -/
def ofDecimal (negative : Bool) (mantissa : Nat) (exponent : Int) : Double :=
  let order := (Nat.toDigits 10 mantissa).length + exponent
  if mantissa = 0 || order < -400 then ofMagnitude negative 0
  else if order > 400 then infinity negative
  else if exponent ≥ 0 then ofRatio negative (mantissa * Nat.pow 10 exponent.toNat) 1
  else ofRatio negative mantissa (Nat.pow 10 (-exponent).toNat)

/-- The numbers that round to a finite one lie between two ratios over a common denominator. -/
structure Interval where
  low : Nat
  middle : Nat
  high : Nat
  denominator : Nat
  /-- Whether the ends round to the middle too. -/
  closed : Bool

def interval (x : Double) : Interval :=
  let mantissa := if x.exponentBits = 0 then x.fraction else x.fraction + Nat.pow 2 52
  let unit : Int := max x.exponentBits 1 - 1075
  let below := if x.fraction = 0 && x.exponentBits > 1 then 1 else 2
  let (factor, denominator) := scale 1 1 (unit - 2)
  ⟨(4 * mantissa - below) * factor, 4 * mantissa * factor, (4 * mantissa + 2) * factor,
    denominator, mantissa % 2 = 0⟩

def Interval.contains (i : Interval) (n d : Nat) : Bool :=
  let low := i.low * d
  let high := i.high * d
  let x := n * i.denominator
  if i.closed then low ≤ x && x ≤ high else low < x && x < high

/-- A multiple of a power of ten as a ratio. -/
def decimalRatio (c : Nat) (exponent : Int) : Nat × Nat :=
  if exponent ≥ 0 then (c * Nat.pow 10 exponent.toNat, 1) else (c, Nat.pow 10 (-exponent).toNat)

/-- Zeros between the point and the first digit of a ratio below one. -/
def leadingZeros (n d : Nat) : Nat → Nat
  | 0 => 0
  | fuel + 1 => if n * 10 ≥ d then 0 else leadingZeros (n * 10) d fuel + 1

/-- How many digits the middle has before the point; negative when zeros follow the point. -/
def Interval.digitsBeforePoint (i : Interval) : Int :=
  if i.middle ≥ i.denominator then (Nat.toDigits 10 (i.middle / i.denominator)).length
  else -leadingZeros i.middle i.denominator 400

/-- The multiple of a power of ten in the interval that is nearest to its middle. -/
def Interval.onGrid (i : Interval) (exponent : Int) : Option Nat :=
  let (unit, parts) := decimalRatio 1 exponent
  let c := i.middle * parts / (i.denominator * unit)
  let isIn (c : Nat) : Bool := let (n, d) := decimalRatio c exponent; i.contains n d
  let rest := i.middle * parts % (i.denominator * unit)
  let upper := if 2 * rest = i.denominator * unit then c % 2 = 1 else 2 * rest > i.denominator * unit
  match isIn c, isIn (c + 1) with
  | true, true => some (if upper then c + 1 else c)
  | true, false => some c
  | false, true => some (c + 1)
  | false, false => none

def dropTrailingZeros (digits : List Char) : List Char :=
  (digits.reverse.dropWhile (· = '0')).reverse

/-- The digits of a positive finite number, the fewest that read back, and how many of them stand
before the point. -/
def shortest (x : Double) : List Char × Int :=
  let i := x.interval
  let before := i.digitsBeforePoint
  let found := (List.range 17).findSome? fun n =>
    let exponent := before - (n + 1 : Nat)
    (i.onGrid exponent).map (·, exponent)
  let (c, exponent) := found.getD (0, 0)
  let digits := Nat.toDigits 10 c
  (dropTrailingZeros digits, digits.length + exponent)

/-- Digits around a point; a whole number has no point. -/
def positional (digits : List Char) (point : Int) : List Char :=
  let length : Int := digits.length
  if point ≤ 0 then ['0', '.'] ++ List.replicate (-point).toNat '0' ++ digits
  else if point ≥ length then digits ++ List.replicate (point - length).toNat '0'
  else digits.take point.toNat ++ '.' :: digits.drop point.toNat

/-- A whole number gets a zero after a point. -/
def withPoint (cs : List Char) : List Char := if cs.contains '.' then cs else cs ++ ['.', '0']

/-- Digits with a point after the first of several. -/
def mantissaChars : List Char → List Char
  | [] => []
  | [d] => [d]
  | d :: rest => d :: '.' :: rest

/-- One digit before the point, and the exponent. -/
def scientific (digits : List Char) (point : Int) : List Char :=
  mantissaChars digits ++ 'e' :: (toString (point - 1)).toList

def sign (x : Double) : List Char := if x.isNegative then ['-'] else []

/-- The full notation of a finite number, always with a point. -/
def plainChars (x : Double) : List Char :=
  x.sign ++ if x.isZero then ['0', '.', '0']
    else
      let (digits, point) := x.shortest
      withPoint (positional digits point)

/-- Very large and very small numbers are written with an exponent. -/
def text (x : Double) : String :=
  if x.isNaN then "NaN"
  else if x.isInfinite then String.ofList (x.sign ++ ['i', 'n', 'f'])
  else if x.isZero then String.ofList x.plainChars
  else
    let (digits, point) := x.shortest
    if point > 16 || point < -3 then String.ofList (x.sign ++ scientific digits point)
    else String.ofList x.plainChars

end Double
end Gateway
