import Gateway.Text.Hex

/-! Network addresses: the two kinds of internet address, their texts, and addresses of
listeners, which add a number after a colon. -/
namespace Gateway

inductive IpAddress where
  | v4 (octets : Vector UInt8 4)
  | v6 (segments : Vector UInt16 8)
  deriving DecidableEq

namespace IpAddress

def octetsText (octets : List UInt8) : String :=
  ".".intercalate (octets.map fun o => toString o.toNat)

/-- Hexadecimal without leading zeros. -/
def segmentText (s : UInt16) : String := String.ofList (Nat.toDigits 16 s.toNat)

def segmentsText (s : List UInt16) : String := ":".intercalate (s.map segmentText)

/-- Length of the run of zeros at the start. -/
def zeroRun (s : List UInt16) : Nat := (s.takeWhile (· = 0)).length

/-- Start and length of the first longest run of zeros, looking from position `i` on. -/
def longestZeros (i : Nat) : List UInt16 → Nat × Nat
  | [] => (i, 0)
  | x :: r =>
    let here := zeroRun (x :: r)
    let later := longestZeros (i + 1) r
    if here ≥ later.2 then (i, here) else later

/-- An address that stands for one of the short kind shows it; else the first longest run of at
least two zeros becomes a double colon. -/
def v6Text (s : List UInt16) : String :=
  match s with
  | [0, 0, 0, 0, 0, 0xFFFF, a, b] =>
    "::ffff:" ++ octetsText [(a >>> 8).toUInt8, a.toUInt8, (b >>> 8).toUInt8, b.toUInt8]
  | _ =>
    let (start, len) := longestZeros 0 s
    if len > 1 then segmentsText (s.take start) ++ "::" ++ segmentsText (s.drop (start + len))
    else segmentsText s

def text : IpAddress → String
  | v4 octets => octetsText octets.toList
  | v6 segments => v6Text segments.toList

end IpAddress

/-- An address that can be listened on or connected from. -/
structure SocketAddress where
  ip : IpAddress
  number : UInt16
  /-- Zone of a link-local address; zero when there is none. -/
  scope : UInt32 := 0
  deriving DecidableEq

namespace SocketAddress

def text (a : SocketAddress) : String :=
  match a.ip with
  | .v4 _ => a.ip.text ++ ":" ++ toString a.number.toNat
  | .v6 _ =>
    let zone := if a.scope = 0 then "" else "%" ++ toString a.scope.toNat
    "[" ++ a.ip.text ++ zone ++ "]:" ++ toString a.number.toNat

def digitValue? (radix : Nat) (c : Char) : Option Nat := (Hex.value? c).filter (· < radix)

/-- Digits in `radix`, at least one; at most `most` of them if that is given; a leading zero only
if allowed; the value below `bound`. -/
def readNumber (radix : Nat) (most : Option Nat) (leadingZero : Bool) (bound : Nat)
    (cs : List Char) : Option (Nat × List Char) :=
  let digits := cs.takeWhile fun c => (digitValue? radix c).isSome
  let value := digits.foldl (fun n c => n * radix + (digitValue? radix c).getD 0) 0
  if digits = [] || most.any (digits.length > ·) ||
      (!leadingZero && digits.length > 1 && digits.head? == some '0') || value ≥ bound then none
  else some (value, cs.drop digits.length)

def readChar (c : Char) : List Char → Option (List Char)
  | [] => none
  | x :: r => if x = c then some r else none

/-- One number of the dotted form. -/
def readOctet (cs : List Char) : Option (UInt8 × List Char) := do
  let (n, r) ← readNumber 10 (some 3) false 256 cs
  pure (UInt8.ofNat n, r)

def readV4 (cs : List Char) : Option (Vector UInt8 4 × List Char) := do
  let (a, r) ← readOctet cs
  let (b, r) ← readOctet (← readChar '.' r)
  let (c, r) ← readOctet (← readChar '.' r)
  let (d, r) ← readOctet (← readChar '.' r)
  pure (#v[a, b, c, d], r)

/-- Between two groups stands a colon. -/
def afterSeparator (first : Bool) (cs : List Char) : Option (List Char) :=
  if first then some cs else readChar ':' cs

def pairSegment (hi lo : UInt8) : UInt16 := UInt16.ofNat (hi.toNat * 256 + lo.toNat)

/-- Up to `room` groups; the last two may be written in dotted form. Also tells whether they
were, and what follows. -/
def readGroups : Nat → Bool → List Char → List UInt16 × Bool × List Char
  | 0, _, cs => ([], false, cs)
  | room + 1, first, cs =>
    let dotted := if room = 0 then none else (afterSeparator first cs).bind readV4
    match dotted with
    | some (v, r) => ([pairSegment v[0] v[1], pairSegment v[2] v[3]], true, r)
    | none =>
      match (afterSeparator first cs).bind (readNumber 16 (some 4) true 65536) with
      | some (n, r) =>
        let (more, isDotted, r) := readGroups room false r
        (UInt16.ofNat n :: more, isDotted, r)
      | none => ([], false, cs)

def segmentsOf? (s : List UInt16) : Option (Vector UInt16 8) :=
  if h : s.length = 8 then some ⟨s.toArray, by simpa using h⟩ else none

/-- Eight groups, or fewer around a double colon that stands for at least one group of zeros. -/
def readV6 (cs : List Char) : Option (Vector UInt16 8 × List Char) :=
  let (front, dotted, r) := readGroups 8 true cs
  if front.length = 8 then (segmentsOf? front).map (·, r)
  else if dotted then none
  else do
    let r ← readChar ':' r
    let r ← readChar ':' r
    let (back, _, r) := readGroups (7 - front.length) true r
    let zeros := List.replicate (8 - front.length - back.length) 0
    let segments ← segmentsOf? (front ++ zeros ++ back)
    pure (segments, r)

/-- A colon and a number below 65536. -/
def readSocketNumber (cs : List Char) : Option (UInt16 × List Char) := do
  let r ← readChar ':' cs
  let (n, r) ← readNumber 10 none true 65536 r
  pure (UInt16.ofNat n, r)

def readShort (cs : List Char) : Option (SocketAddress × List Char) := do
  let (ip, r) ← readV4 cs
  let (number, r) ← readSocketNumber r
  pure (⟨.v4 ip, number, 0⟩, r)

def readScope (cs : List Char) : Option (UInt32 × List Char) := do
  let r ← readChar '%' cs
  let (n, r) ← readNumber 10 none true 4294967296 r
  pure (UInt32.ofNat n, r)

def readLong (cs : List Char) : Option (SocketAddress × List Char) := do
  let r ← readChar '[' cs
  let (ip, r) ← readV6 r
  let (scope, r) := (readScope r).getD (0, r)
  let r ← readChar ']' r
  let (number, r) ← readSocketNumber r
  pure (⟨.v6 ip, number, scope⟩, r)

/-- Read an address of either kind; the long kind stands in brackets. -/
def parse? (s : String) : Option SocketAddress :=
  match (readShort s.toList).orElse fun _ => readLong s.toList with
  | some (a, []) => some a
  | _ => none

end SocketAddress
end Gateway
