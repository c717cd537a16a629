import Gateway.Toml.Draft
import Gateway.Toml.Text

/-! Reading configuration texts: numbers, arrays, tables and headers. A text is read whole or not
at all. -/
namespace Gateway.Toml

/-- Digits in groups between single underscores. -/
def ungroup (isDigit : Char → Bool) (cs : List Char) : Option (List Char) :=
  let groups := cs.splitOn '_'
  if groups.all fun g => g ≠ [] && g.all isDigit then some groups.flatten else none

def splitSign : List Char → Bool × List Char
  | '-' :: r => (true, r)
  | '+' :: r => (false, r)
  | cs => (false, cs)

def digitsValue (radix : Nat) (cs : List Char) : Nat :=
  cs.foldl (fun n c => n * radix + (Hex.value? c).getD 0) 0

def isDigitIn (radix : Nat) (c : Char) : Bool := (Hex.value? c).any (· < radix)

/-- Decimal digits without a needless zero in front. -/
def decimalDigits? (cs : List Char) : Option (List Char) :=
  if cs.length > 1 ∧ cs.head? = some '0' then none else ungroup (isDigitIn 10) cs

/-- Whole numbers have 64 bits. -/
def integerInRange? (n : Int) : Option Int :=
  if -(Nat.pow 2 63) ≤ n ∧ n < Nat.pow 2 63 then some n else none

def inRadix? (radix : Nat) (cs : List Char) : Option Int :=
  (ungroup (isDigitIn radix) cs).bind fun digits => integerInRange? (digitsValue radix digits)

def integer? : List Char → Option Int
  | '0' :: 'x' :: r => inRadix? 16 r
  | '0' :: 'o' :: r => inRadix? 8 r
  | '0' :: 'b' :: r => inRadix? 2 r
  | cs =>
    let (negative, r) := splitSign cs
    (decimalDigits? r).bind fun digits =>
      let n : Int := digitsValue 10 digits
      integerInRange? (if negative then -n else n)

/-- The digits after a point, if there is one. -/
def fraction? : List Char → Option (List Char)
  | [] => some []
  | _ :: r => ungroup (isDigitIn 10) r

/-- The number after an exponent mark, if there is one. -/
def exponent? : List Char → Option Int
  | [] => some 0
  | _ :: r =>
    let (negative, r) := splitSign r
    (ungroup (isDigitIn 10) r).map fun digits =>
      let n : Int := digitsValue 10 digits
      if negative then -n else n

def isExponentMark (c : Char) : Bool := c = 'e' || c = 'E'

/-- A number with a fraction or an exponent. One that is too large is refused. -/
def decimal? (negative : Bool) (cs : List Char) : Option Double := do
  let mantissa := cs.takeWhile fun c => !isExponentMark c
  let whole ← decimalDigits? (mantissa.takeWhile (· ≠ '.'))
  let fraction ← fraction? (mantissa.dropWhile (· ≠ '.'))
  let exponent ← exponent? (cs.dropWhile fun c => !isExponentMark c)
  if cs.all fun c => c ≠ '.' && !isExponentMark c then none
  else
    let x := Double.ofDecimal negative (digitsValue 10 (whole ++ fraction))
      (exponent - (fraction.length : Nat))
    if x = .infinity false then none else some x

def float? (cs : List Char) : Option Double :=
  let (negative, r) := splitSign cs
  if r = "inf".toList then some (.infinity negative)
  else if r = "nan".toList then some .nan
  else decimal? negative r

/-- A value without quotes or brackets. -/
def scalarValue? (cs : List Char) : Option Value :=
  if cs = "true".toList then some (.boolean true)
  else if cs = "false".toList then some (.boolean false)
  else match Datetime.parse? cs with
    | some d => some (.datetime d)
    | none =>
      match integer? cs with
      | some n => some (.integer n)
      | none => (float? cs).map .float

/-- Characters that may stand in a scalar. -/
def isScalarChar (c : Char) : Bool := !isBlank c && !("\r\n,]\x7d#".toList.contains c)

/-- A time may follow its date after one blank. -/
def takesTime (word rest : List Char) : Bool :=
  (Datetime.readDate word).any (·.2 = []) && rest.head? = some ' ' &&
    (rest[1]?).any Char.isDigit

def readScalar (cs : List Char) : Option (Value × List Char) :=
  let word := cs.takeWhile isScalarChar
  let rest := cs.dropWhile isScalarChar
  if takesTime word rest then
    let time := (rest.drop 1).takeWhile isScalarChar
    (scalarValue? (word ++ ' ' :: time)).map (·, (rest.drop 1).dropWhile isScalarChar)
  else (scalarValue? word).map (·, rest)

/-- Reads one value at the start of a text. -/
abbrev ValueReader := List Char → Option (Value × List Char)

/-- The items of an array up to its bracket. A comma may follow the last one. -/
def readItems (read : ValueReader) : Nat → List Char → Option (List Value × List Char)
  | 0, _ => none
  | fuel + 1, cs => do
    match ← skipTrivia false cs with
    | ']' :: r => pure ([], r)
    | cs => do
      let (v, r) ← read cs
      match ← skipTrivia false r with
      | ']' :: r => pure ([v], r)
      | ',' :: r => do
        let (vs, r) ← readItems read fuel r
        pure (v :: vs, r)
      | _ => none

/-- A key with its value. -/
structure KeyValue where
  path : List String
  key : String
  value : Value

def readKeyValue (read : ValueReader) (cs : List Char) : Option (KeyValue × List Char) := do
  let (path, r) ← readKey depthLimit cs
  let key ← path.getLast?
  match r with
  | '=' :: r => do
    let (value, r) ← read (skipBlanks r)
    pure (⟨path.dropLast, key, value⟩, r)
  | _ => none

/-- The pairs of a table in one piece, up to its brace. No comma follows the last one. -/
def readPairs (read : ValueReader) : Nat → List Char → Option (List KeyValue × List Char)
  | 0, _ => none
  | fuel + 1, cs => do
    let (kv, r) ← readKeyValue read cs
    match skipBlanks r with
    | '\x7d' :: r => pure ([kv], r)
    | ',' :: r => do
      let (kvs, r) ← readPairs read fuel r
      pure (kv :: kvs, r)
    | _ => none

def inlineTable? (pairs : List KeyValue) : Option Value := do
  let entries ← pairs.foldlM
    (fun entries kv => Draft.putKey kv.path kv.key kv.value .header entries) []
  pure (Draft.table .header entries).toValue

def readInlineTable (read : ValueReader) (cs : List Char) : Option (Value × List Char) :=
  match skipBlanks cs with
  | '\x7d' :: r => some (.table [], r)
  | r => do
    let (pairs, r) ← readPairs read r.length r
    let v ← inlineTable? pairs
    pure (v, r)

/-- A value of any kind that nests at most `depth` times. -/
def readValue : Nat → ValueReader
  | 0, _ => none
  | depth + 1, cs =>
    match cs with
    | '[' :: r => (readItems (readValue depth) (r.length + 1) r).map fun p => (.array p.1, p.2)
    | '\x7b' :: r => readInlineTable (readValue depth) r
    | '"' :: _ => (readText cs).map fun p => (.string p.1, p.2)
    | '\'' :: _ => (readText cs).map fun p => (.string p.1, p.2)
    | _ => readScalar cs

/-- What has been read of a text, and the table that the last header opened. -/
structure Document where
  root : DraftTable := []
  path : List String := []

namespace Document

def put (d : Document) (kv : KeyValue) : Option Document := do
  let root ← Draft.inside d.path (Draft.putKey kv.path kv.key kv.value) d.root
  pure { d with root }

/-- Follow a header. -/
def follow (d : Document) (openLast : String → DraftTable → Option DraftTable)
    (path : List String) : Option Document := do
  let key ← path.getLast?
  let root ← Draft.inside path.dropLast (fun _ => openLast key) d.root
  pure { root, path }

/-- The header of an array of tables, in two brackets. -/
def readItemHeader (d : Document) (cs : List Char) : Option (Document × List Char) := do
  let (path, r) ← readKey depthLimit cs
  match r with
  | ']' :: ']' :: r => do pure (← d.follow Draft.openItem path, r)
  | _ => none

def readHeader (d : Document) (cs : List Char) : Option (Document × List Char) := do
  let (path, r) ← readKey depthLimit cs
  match r with
  | ']' :: r => do pure (← d.follow Draft.openTable path, r)
  | _ => none

/-- What one line says. A value may go on over more lines. -/
def readLine (d : Document) (cs : List Char) : Option (Document × List Char) :=
  match cs with
  | [] => some (d, [])
  | '#' :: _ => some (d, cs)
  | '\n' :: _ => some (d, cs)
  | '\r' :: _ => some (d, cs)
  | '[' :: '[' :: r => d.readItemHeader r
  | '[' :: r => d.readHeader r
  | _ => do
    let (kv, r) ← readKeyValue (readValue depthLimit) cs
    pure (← d.put kv, r)

def readLines : Nat → Document → List Char → Option Document
  | 0, _, _ => none
  | fuel + 1, d, cs => do
    let (d, r) ← d.readLine (skipBlanks cs)
    let r ← finishLine r
    if r = [] then pure d else readLines fuel d r

end Document

/-- A mark of the byte order may come first. -/
def skipMark : List Char → List Char
  | '\uFEFF' :: r => r
  | cs => cs

/-- Read a whole text. -/
def parse? (s : String) : Option Value :=
  let cs := skipMark s.toList
  (Document.readLines (cs.length + 1) {} cs).map fun d => (Draft.table .header d.root).toValue

end Gateway.Toml
