import Gateway.Toml.Text
import Gateway.Toml.Value

/-! Writing configuration texts: single values on one line, and whole tables as a document with a
header for each table inside of it. -/
namespace Gateway.Toml

/-- Length of the longest run of a character. -/
def longestRun (c : Char) (cs : List Char) : Nat :=
  (cs.foldl (fun (best, run) x => if x = c then (max best (run + 1), run + 1) else (best, 0))
    (0, 0)).1

/-- Characters that only an escape can write. -/
def needsEscape (c : Char) : Bool := !isPlain c && c ≠ '\n'

def upperHex (width n : Nat) : List Char :=
  let digits := (Nat.toDigits 16 n).map Char.toUpper
  List.replicate (width - digits.length) '0' ++ digits

/-- The escape for a character in double quotes, if it takes one. -/
def escapeOf? (multiline : Bool) (c : Char) : Option (List Char) :=
  match simpleEscapes.find? (·.2 = c) with
  | some (mark, _) =>
    if c = '"' ∨ (multiline ∧ c = '\n') then none else some ['\\', mark]
  | none => if needsEscape c then some ('\\' :: 'u' :: upperHex 4 c.toNat) else none

/-- Text for double quotes. Quotes are escaped beyond `quotes` in a row. -/
def escaped (multiline : Bool) (quotes : Nat) (run : Nat) : List Char → List Char
  | [] => []
  | c :: r =>
    if c = '"' then
      if run < quotes then '"' :: escaped multiline quotes (run + 1) r
      else '\\' :: '"' :: escaped multiline quotes 0 r
    else match escapeOf? multiline c with
      | some e => e ++ escaped multiline quotes 0 r
      | none => c :: escaped multiline quotes 0 r

def basicQuoted (cs : List Char) : List Char := '"' :: escaped false 0 0 cs ++ ['"']

/-- Text over several lines starts on a line of its own. -/
def opening (cs : List Char) : List Char := if cs.contains '\n' then ['\n'] else []

def multilineQuoted (cs : List Char) : List Char :=
  "\"\"\"".toList ++ opening cs ++ escaped true 2 0 cs ++ "\"\"\"".toList

def literalQuoted (cs : List Char) : List Char := '\'' :: cs ++ ['\'']

def multilineLiteral (cs : List Char) : List Char :=
  "'''".toList ++ opening cs ++ cs ++ "'''".toList

/-- A text in the quotes that leave most of it as it is. -/
def quotedChars (cs : List Char) : List Char :=
  let controls := cs.any needsEscape
  let newline := cs.contains '\n'
  let backslash := cs.contains '\\'
  if !controls && !backslash && !cs.contains '"' && !newline then basicQuoted cs
  else if !controls && !cs.contains '\'' && !newline then literalQuoted cs
  else if !controls && !backslash && longestRun '"' cs ≤ 2 then multilineQuoted cs
  else if !controls && longestRun '\'' cs ≤ 2 then multilineLiteral cs
  else if newline then multilineQuoted cs
  else basicQuoted cs

/-- A key is bare if it can be. -/
def keyChars (key : String) : List Char :=
  let cs := key.toList
  let controls := cs.any fun c => !isPlain c
  if cs ≠ [] ∧ cs.all isBareKeyChar then cs
  else if !controls && !cs.contains '\\' && !cs.contains '"' then basicQuoted cs
  else if !controls && !cs.contains '\'' then literalQuoted cs
  else basicQuoted cs

def floatChars (x : Double) : List Char :=
  if x.isNaN then "nan".toList
  else if x.isInfinite then x.sign ++ "inf".toList
  else x.plainChars

mutual

/-- A value. With `spread`, an array of more than one item takes a line for each. -/
def Value.chars (spread : Bool) : Value → List Char
  | .string s => quotedChars s.toList
  | .integer n => (toString n).toList
  | .float x => floatChars x
  | .boolean b => (if b then "true" else "false").toList
  | .datetime d => d.chars
  | .array items =>
    if spread ∧ items.length > 1 then '[' :: lineChars items ++ "\n]".toList
    else '[' :: itemChars spread items ++ [']']
  | .table [] => ['\x7b', '\x7d']
  | .table entries => '\x7b' :: pairChars spread entries ++ [' ', '\x7d']

def lineChars : List Value → List Char
  | [] => []
  | v :: r => "\n    ".toList ++ v.chars true ++ ',' :: lineChars r

def itemChars (spread : Bool) : List Value → List Char
  | [] => []
  | [v] => v.chars spread
  | v :: r => v.chars spread ++ ',' :: ' ' :: itemChars spread r

def pairChars (spread : Bool) : List (String × Value) → List Char
  | [] => []
  | [(k, v)] => ' ' :: keyChars k ++ " = ".toList ++ v.chars spread
  | (k, v) :: r => ' ' :: keyChars k ++ " = ".toList ++ v.chars spread ++ ',' :: pairChars spread r

end

/-- The text of a value on one line. -/
def Value.inlineText (v : Value) : String := String.ofList (v.chars false)

/-- Whether a value gets headers of its own: a table, or an array of nothing but tables. -/
def Value.isSection : Value → Bool
  | .table _ => true
  | .array items => !items.isEmpty && items.all Value.isTable
  | _ => false

/-- A table with the path of its header. -/
structure Section where
  path : List String
  /-- Whether the table is an item of an array. -/
  isItem : Bool
  entries : Table

mutual

/-- A table and all tables inside of it, outermost first. -/
def Value.sections (path : List String) (isItem : Bool) : Value → List Section
  | .table entries => ⟨path, isItem, entries⟩ :: entrySections path entries
  | .array items => itemSections path items
  | _ => []

def entrySections (path : List String) : List (String × Value) → List Section
  | [] => []
  | (k, v) :: r =>
    (if v.isSection then v.sections (path ++ [k]) false else []) ++ entrySections path r

def itemSections (path : List String) : List Value → List Section
  | [] => []
  | v :: r => v.sections path true ++ itemSections path r

end

namespace Section

/-- The entries that stand under the header itself. -/
def own (s : Section) : Table := s.entries.filter fun e => !e.2.isSection

/-- A table that holds only tables needs no header. -/
def hasHeader (s : Section) : Bool :=
  s.path ≠ [] && (s.isItem || s.entries.isEmpty || !s.own.isEmpty)

def headerChars (s : Section) : List Char :=
  let name := List.intercalate ['.'] (s.path.map keyChars)
  if s.isItem then "[[".toList ++ name ++ "]]\n".toList else '[' :: name ++ "]\n".toList

def bodyChars (s : Section) : List Char :=
  s.own.flatMap fun e => keyChars e.1 ++ " = ".toList ++ e.2.chars true ++ ['\n']

def chars (s : Section) : List Char :=
  (if s.hasHeader then s.headerChars else []) ++ s.bodyChars

end Section

/-- A table as a document: its own entries, then each table inside of it after an empty line. -/
def document (root : Table) : String :=
  let parts := ((Value.table root).sections [] false).map Section.chars
  String.ofList (List.intercalate ['\n'] (parts.filter (· ≠ [])))

end Gateway.Toml
