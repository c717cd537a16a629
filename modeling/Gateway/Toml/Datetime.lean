import Gateway.Text.Hex

/-! Dates and times as they stand in configuration texts: a date, a time of day, or both, with or
without an offset from universal time. -/
namespace Gateway.Toml

structure Date where
  year : Nat
  month : Nat
  day : Nat
  deriving DecidableEq, Repr

structure TimeOfDay where
  hour : Nat
  minute : Nat
  second : Nat
  nanosecond : Nat := 0
  deriving DecidableEq, Repr

inductive Offset where
  | utc
  /-- Minutes ahead of universal time. -/
  | minutes (n : Int)
  deriving DecidableEq, Repr

structure Datetime where
  date : Option Date := none
  time : Option TimeOfDay := none
  offset : Option Offset := none
  deriving DecidableEq, Repr

/-- A number with at least `width` digits. -/
def padded (width n : Nat) : List Char :=
  let digits := Nat.toDigits 10 n
  List.replicate (width - digits.length) '0' ++ digits

def Date.chars (d : Date) : List Char :=
  padded 4 d.year ++ '-' :: padded 2 d.month ++ '-' :: padded 2 d.day

/-- The digits of a fraction without the zeros at its end. -/
def fractionChars (nanosecond : Nat) : List Char :=
  ((padded 9 nanosecond).reverse.dropWhile (· = '0')).reverse

def TimeOfDay.chars (t : TimeOfDay) : List Char :=
  padded 2 t.hour ++ ':' :: padded 2 t.minute ++ ':' :: padded 2 t.second ++
    if t.nanosecond = 0 then [] else '.' :: fractionChars t.nanosecond

def Offset.chars : Offset → List Char
  | utc => ['Z']
  | minutes n =>
    (if n < 0 then '-' else '+') :: padded 2 (n.natAbs / 60) ++ ':' :: padded 2 (n.natAbs % 60)

namespace Datetime

def chars (d : Datetime) : List Char :=
  ((d.date.map Date.chars).getD []) ++
    (if d.date.isSome && d.time.isSome then ['T'] else []) ++
    ((d.time.map TimeOfDay.chars).getD []) ++ ((d.offset.map Offset.chars).getD [])

def text (d : Datetime) : String := String.ofList d.chars

def daysInMonth (year month : Nat) : Nat :=
  if month = 2 then
    if year % 4 = 0 ∧ (year % 100 ≠ 0 ∨ year % 400 = 0) then 29 else 28
  else if month ∈ [4, 6, 9, 11] then 30
  else 31

/-- A number of exactly `width` digits. -/
def readDigits (width : Nat) (cs : List Char) : Option (Nat × List Char) :=
  let digits := cs.take width
  if digits.length = width ∧ digits.all Char.isDigit then
    some (digits.foldl (fun n c => n * 10 + (c.toNat - '0'.toNat)) 0, cs.drop width)
  else none

/-- A two-digit number up to `most`. -/
def readPair (most : Nat) (cs : List Char) : Option (Nat × List Char) :=
  (readDigits 2 cs).filter (·.1 ≤ most)

def readMark (marks : List Char) : List Char → Option (Char × List Char)
  | [] => none
  | c :: r => if c ∈ marks then some (c, r) else none

def readDate (cs : List Char) : Option (Date × List Char) := do
  let (year, r) ← readDigits 4 cs
  let (_, r) ← readMark ['-'] r
  let (month, r) ← readPair 12 r
  let (_, r) ← readMark ['-'] r
  let (day, r) ← readPair 31 r
  if 1 ≤ month ∧ 1 ≤ day ∧ day ≤ daysInMonth year month then some (⟨year, month, day⟩, r) else none

/-- Digits after a point; nine of them count. -/
def readFraction (cs : List Char) : Option (Nat × List Char) :=
  match cs with
  | '.' :: r =>
    let digits := r.takeWhile Char.isDigit
    if digits = [] then none
    else
      let nine := (digits ++ List.replicate 9 '0').take 9
      some (nine.foldl (fun n c => n * 10 + (c.toNat - '0'.toNat)) 0, r.dropWhile Char.isDigit)
  | _ => some (0, cs)

def readTime (cs : List Char) : Option (TimeOfDay × List Char) := do
  let (hour, r) ← readPair 23 cs
  let (_, r) ← readMark [':'] r
  let (minute, r) ← readPair 59 r
  let (_, r) ← readMark [':'] r
  let (second, r) ← readPair 60 r
  let (nanosecond, r) ← readFraction r
  pure (⟨hour, minute, second, nanosecond⟩, r)

def readOffset (cs : List Char) : Option (Offset × List Char) := do
  let (mark, r) ← readMark ['Z', 'z', '+', '-'] cs
  if mark = 'Z' ∨ mark = 'z' then some (.utc, r)
  else
    let (hours, r) ← readPair 23 r
    let (_, r) ← readMark [':'] r
    let (minutes, r) ← readPair 59 r
    let total : Int := hours * 60 + minutes
    some (.minutes (if mark = '-' then -total else total), r)

/-- A date and time; the offset may be missing. -/
def parseMoment (cs : List Char) : Option Datetime := do
  let (date, r) ← readDate cs
  match r with
  | [] => some { date := some date }
  | _ => do
    let (_, r) ← readMark ['T', 't', ' '] r
    let (time, r) ← readTime r
    if r = [] then some { date := some date, time := some time }
    else
      let (offset, r) ← readOffset r
      if r = [] then some ⟨some date, some time, some offset⟩ else none

/-- Read any of the four forms. -/
def parse? (cs : List Char) : Option Datetime :=
  match parseMoment cs with
  | some d => some d
  | none =>
    match readTime cs with
    | some (time, []) => some { time := some time }
    | _ => none

end Datetime
end Gateway.Toml
