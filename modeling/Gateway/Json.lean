import Gateway.Text.Hex

/-! Structured answers. Values print compactly, object fields in the order of their names. -/
namespace Gateway

/-- A value of a structured answer. Numbers that are not whole are kept by their text. -/
inductive Json where
  | null
  | bool (b : Bool)
  | num (n : Int)
  | decimal (text : String)
  | str (s : String)
  | arr (items : List Json)
  | obj (fields : List (String × Json))
  deriving Inhabited

namespace Json

/-- An object with its fields put in order; of two fields of one name the later one stays. -/
def object (fields : List (String × Json)) : Json :=
  let latest := fields.foldl (fun kept f => kept.filter (·.1 ≠ f.1) ++ [f]) []
  .obj (latest.mergeSort fun a b => decide (a.1 ≤ b.1))

def texts (items : List String) : Json := .arr (items.map .str)

def ofOption {α : Type} (f : α → Json) : Option α → Json
  | some a => f a
  | none => .null

def nat (n : Nat) : Json := .num n

/-- An error that is told by a label and a message. -/
def labelled (label message : String) : Json :=
  object [("error", .str label), ("message", .str message)]

/-- Bytes as text when they are UTF-8, else as digits; long ones by their length and sum. -/
def ofBytes (b : Bytes) : Json :=
  if b.length > 4096 then object [("len", nat b.length), ("sum", nat b.sum)]
  else match Bytes.text? b with
    | some s => .str s
    | none => object [("hex", .str (Hex.encode b))]

/-- A control character is written by its letter or by its number. -/
def escapeChar (c : Char) : List Char :=
  match c with
  | '"' => ['\\', '"']
  | '\\' => ['\\', '\\']
  | '\n' => ['\\', 'n']
  | '\r' => ['\\', 'r']
  | '\t' => ['\\', 't']
  | c =>
    if c.toNat = 8 then ['\\', 'b']
    else if c.toNat = 12 then ['\\', 'f']
    else if c.toNat < 0x20 then
      ['\\', 'u', '0', '0', Hex.digit (c.toNat / 16), Hex.digit (c.toNat % 16)]
    else [c]

def quote (s : String) : List Char := '"' :: s.toList.flatMap escapeChar ++ ['"']

mutual

/-- The compact text of a value. -/
def chars : Json → List Char
  | .null => "null".toList
  | .bool b => (if b then "true" else "false").toList
  | .num n => (toString n).toList
  | .decimal text => text.toList
  | .str s => quote s
  | .arr items => '[' :: itemChars items ++ [']']
  | .obj fields => '\x7b' :: fieldChars fields ++ ['\x7d']

def itemChars : List Json → List Char
  | [] => []
  | [v] => chars v
  | v :: vs => chars v ++ ',' :: itemChars vs

def fieldChars : List (String × Json) → List Char
  | [] => []
  | [(k, v)] => quote k ++ ':' :: chars v
  | (k, v) :: r => quote k ++ ':' :: chars v ++ ',' :: fieldChars r

end

def text (v : Json) : String := String.ofList v.chars

def bytes (v : Json) : Bytes := Bytes.ofText v.text

end Json
end Gateway
