import Gateway.Text.Unprintable

/-! Quoted text, as it stands in messages about a text that may be hard to read. -/
namespace Gateway.Text

/-- Backslash escapes for quotes, backslashes and line ends; the number in braces for whatever
else does not show. -/
def escapeChar (c : Char) : List Char :=
  match c with
  | '"' => ['\\', '"']
  | '\\' => ['\\', '\\']
  | '\n' => ['\\', 'n']
  | '\r' => ['\\', 'r']
  | '\t' => ['\\', 't']
  | c =>
    if c.toNat = 0 then ['\\', '0']
    else if 0x20 ≤ c.toNat ∧ c.toNat < 0x7F then [c]
    else if c.toNat < 0x80 ∨ isUnprintable c then
      ['\\', 'u', '\x7b'] ++ Nat.toDigits 16 c.toNat ++ ['\x7d']
    else [c]

def quotedChars (s : List Char) : List Char := '"' :: s.flatMap escapeChar ++ ['"']

/-- The text between quotes, with escapes. -/
def quoted (s : String) : String := String.ofList (quotedChars s.toList)

end Gateway.Text
