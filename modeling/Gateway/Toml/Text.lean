import Gateway.Text.Hex

/-! The lexical part of configuration texts: blanks, comments and the four kinds of quoted text. -/
namespace Gateway.Toml

def isBlank (c : Char) : Bool := c = ' ' || c = '\t'

/-- Characters that stand for themselves in comments and in quoted text. -/
def isPlain (c : Char) : Bool := c = '\t' || (0x20 ≤ c.toNat && c.toNat ≠ 0x7F)

def skipBlanks (cs : List Char) : List Char := cs.dropWhile isBlank

/-- What follows the end of a line. -/
def afterNewline? : List Char → Option (List Char)
  | '\n' :: r => some r
  | '\r' :: '\n' :: r => some r
  | _ => none

/-- What follows blanks, comments and line ends. A comment holds plain characters only. -/
def skipTrivia (inComment : Bool) : List Char → Option (List Char)
  | [] => some []
  | '\n' :: r => skipTrivia false r
  | '\r' :: '\n' :: r => skipTrivia false r
  | c :: r =>
    if inComment then if isPlain c then skipTrivia true r else none
    else if c = '#' then skipTrivia true r
    else if isBlank c then skipTrivia false r
    else some (c :: r)

/-- What follows the rest of a line that holds nothing but blanks and a comment. -/
def finishLine (cs : List Char) : Option (List Char) :=
  let rest := match skipBlanks cs with
    | '#' :: r => r.dropWhile isPlain
    | r => r
  match rest with
  | [] => some []
  | _ => afterNewline? rest

/-- The character with a number, unless the number stands for none. -/
def scalar? (n : Nat) : Option Char := if n.isValidChar then some (Char.ofNat n) else none

/-- The character written by `width` hexadecimal digits. -/
def numbered? (width : Nat) (cs : List Char) : Option Char :=
  let digits := cs.take width
  if digits.length = width then
    (digits.mapM Hex.value?).bind fun values => scalar? (values.foldl (fun n d => n * 16 + d) 0)
  else none

def simpleEscapes : List (Char × Char) :=
  [('b', '\x08'), ('t', '\t'), ('n', '\n'), ('f', '\x0c'), ('r', '\r'), ('"', '"'), ('\\', '\\')]

/-- The character an escape stands for, and how many characters it takes after the backslash. -/
def escape? (cs : List Char) : Option (Char × Nat) :=
  match cs with
  | [] => none
  | 'u' :: r => (numbered? 4 r).map (·, 5)
  | 'U' :: r => (numbered? 8 r).map (·, 9)
  | c :: _ => (simpleEscapes.lookup c).map (·, 1)

def consFirst (c : Char) (p : List Char × List Char) : List Char × List Char := (c :: p.1, p.2)

/-- The rest of a text in double quotes, and what follows. -/
def basicChars : List Char → Option (List Char × List Char)
  | [] => none
  | '"' :: r => some ([], r)
  | '\\' :: r =>
    match escape? r with
    | some (c, used) => (basicChars (r.drop used)).map (consFirst c)
    | none => none
  | c :: r => if isPlain c then (basicChars r).map (consFirst c) else none
termination_by cs => cs.length
decreasing_by all_goals simp only [List.length_drop, List.length_cons]; omega

/-- The rest of a text in single quotes, and what follows. -/
def literalChars (cs : List Char) : Option (List Char × List Char) :=
  let body := cs.takeWhile (· ≠ '\'')
  match cs.dropWhile (· ≠ '\'') with
  | _ :: r => if body.all isPlain then some (body, r) else none
  | [] => none

/-- How many characters of blanks and line ends come first. -/
def spaceLength : List Char → Nat
  | [] => 0
  | '\r' :: '\n' :: r => spaceLength r + 2
  | c :: r => if isBlank c || c = '\n' then spaceLength r + 1 else 0

/-- The length of the space after a backslash that ends a line. -/
def continuation? (cs : List Char) : Option Nat :=
  (afterNewline? (skipBlanks cs)).map fun _ => spaceLength cs

/-- The rest of a text over several lines, and what follows. One or two quotes stand for
themselves, also just before the three that end the text. -/
def multilineChars (quote : Char) (escapes : Bool) : List Char → Option (List Char × List Char)
  | [] => none
  | '\r' :: '\n' :: r => (multilineChars quote escapes r).map (consFirst '\n')
  | '\n' :: r => (multilineChars quote escapes r).map (consFirst '\n')
  | c :: r =>
    if c = quote then
      let more := (r.takeWhile (· = quote)).length
      let quotes := List.replicate (more + 1) quote
      if more < 2 then
        (multilineChars quote escapes (r.drop more)).map fun p => (quotes ++ p.1, p.2)
      else if more < 5 then some (quotes.drop 3, r.drop more)
      else none
    else if escapes && c = '\\' then
      match continuation? r with
      | some space => multilineChars quote escapes (r.drop space)
      | none =>
        match escape? r with
        | some (e, used) => (multilineChars quote escapes (r.drop used)).map (consFirst e)
        | none => none
    else if isPlain c then (multilineChars quote escapes r).map (consFirst c)
    else none
termination_by cs => cs.length
decreasing_by all_goals simp only [List.length_drop, List.length_cons]; omega

/-- A line end right after the opening quotes does not count. -/
def afterOpening (cs : List Char) : List Char := (afterNewline? cs).getD cs

/-- A quoted text of any kind, and what follows. -/
def readText (cs : List Char) : Option (String × List Char) :=
  let read := match cs with
    | '"' :: '"' :: '"' :: r => multilineChars '"' true (afterOpening r)
    | '\'' :: '\'' :: '\'' :: r => multilineChars '\'' false (afterOpening r)
    | '"' :: r => basicChars r
    | '\'' :: r => literalChars r
    | _ => none
  read.map fun p => (String.ofList p.1, p.2)

def isBareKeyChar (c : Char) : Bool := c.isAlphanum || c = '_' || c = '-'

/-- One part of a key: quoted on one line, or bare. -/
def readKeyPart (cs : List Char) : Option (String × List Char) :=
  let read := match cs with
    | '"' :: r => basicChars r
    | '\'' :: r => literalChars r
    | _ =>
      let bare := cs.takeWhile isBareKeyChar
      if bare = [] then none else some (bare, cs.dropWhile isBareKeyChar)
  read.map fun p => (String.ofList p.1, p.2)

/-- The parts of a key between dots, at most `room` of them, with blanks around each. -/
def readKey : Nat → List Char → Option (List String × List Char)
  | 0, _ => none
  | room + 1, cs => do
    let (part, r) ← readKeyPart (skipBlanks cs)
    match skipBlanks r with
    | '.' :: r => do
      let (parts, r) ← readKey room r
      pure (part :: parts, r)
    | r => pure ([part], r)

/-- Keys have fewer than eighty parts, and values nest less than eighty times. -/
def depthLimit : Nat := 79

end Gateway.Toml
