import Gateway.Exchange.Basic

/-! Filters for diagnostic messages: directives that name a target, a span and fields, each with
the least severe level to show. The most specific directive comes first. -/
namespace Gateway.LogFilter

inductive Level where
  | off
  | error
  | warn
  | info
  | debug
  | trace
  deriving DecidableEq, Repr

def Level.text : Level → String
  | off => "off"
  | error => "error"
  | warn => "warn"
  | info => "info"
  | debug => "debug"
  | trace => "trace"

/-- Levels in order; they may be named by their position. -/
def levels : List Level := [.off, .error, .warn, .info, .debug, .trace]

def asciiLower (s : String) : String := String.ofList (s.toList.map Char.toLower)

def Level.parse? (s : String) : Option Level :=
  match Exchange.sizeOfText? s with
  | some n => levels[n]?
  | none =>
    if s = "" then some .error else levels.find? fun l => l.text = asciiLower s

/-- A field of a span, with the value it must have, if any. -/
structure Field where
  name : String
  value : Option String := none
  deriving DecidableEq, Repr

structure Directive where
  target : Option String := none
  span : Option String := none
  fields : List Field := []
  level : Level := .trace
  deriving DecidableEq, Repr

namespace Directive

/-- Whether the directive looks at the spans around a message. -/
def isDynamic (d : Directive) : Bool := d.span.isSome || !d.fields.isEmpty

/-- Whether the directive can be decided without looking at values. -/
def isStatic (d : Directive) : Bool := d.span.isNone && d.fields.all (·.value.isNone)

def fieldText (f : Field) : String :=
  match f.value with
  | some v => f.name ++ "=" ++ v
  | none => f.name

def bracketText (d : Directive) : String :=
  if d.isDynamic then
    let fields := if d.fields.isEmpty then ""
      else "\x7b" ++ ",".intercalate (d.fields.map fieldText) ++ "\x7d"
    "[" ++ d.span.getD "" ++ fields ++ "]"
  else ""

def text (d : Directive) : String :=
  let subject := d.target.getD "" ++ d.bracketText
  let mark := if d.target.isSome || d.isDynamic then "=" else ""
  subject ++ mark ++ d.level.text

/-- Length in bytes; a missing text is shorter than any other. -/
def lengthOf (s : Option String) : Nat :=
  match s with
  | some s => s.utf8ByteSize + 1
  | none => 0

/-- What makes one directive more specific than another, most important first. -/
def specificity (d : Directive) : List Nat :=
  [lengthOf d.target, if d.span.isSome then 1 else 0, d.fields.length]

/-- The texts that decide between equally specific directives. -/
def subject (d : Directive) : List String :=
  [d.target.getD "", d.span.getD ""] ++ d.fields.flatMap fun f => [f.name, f.value.getD ""]

def precedes (a b : Directive) : Bool :=
  decide (b.specificity < a.specificity) ||
    (a.specificity == b.specificity && decide (b.subject < a.subject))

def sameSubject (a b : Directive) : Bool :=
  a.specificity == b.specificity && a.subject == b.subject

/-- Put a directive in its place; it replaces one with the same subject. -/
def insert (d : Directive) : List Directive → List Directive
  | [] => [d]
  | e :: rest =>
    if d.sameSubject e then d :: rest
    else if d.precedes e then d :: e :: rest
    else e :: insert d rest

/-- Where the reading of a directive stands. Positions count characters. -/
inductive Reading where
  | start
  | levelOrTarget (start : Nat)
  | span (start : Nat)
  | field (start : Nat)
  | fields
  | target
  | level (start : Nat)

def slice (cs : List Char) (start stop : Nat) : String := String.ofList ((cs.take stop).drop start)

def readField (s : String) : Option Field :=
  match (s.toList.splitOn '=').map String.ofList with
  | [] => none
  | [""] => none
  | [name] => some ⟨name, none⟩
  | name :: value :: _ => some ⟨name, some value⟩

/-- Letters and digits of any script count, so only ASCII marks are refused. -/
def mayStart (c : Char) : Bool := c.isAlphanum || c = '-' || c = ':' || c = '_' || c.toNat ≥ 128

/-- One character of a directive. -/
def step (cs : List Char) (i : Nat) (c : Char) : Reading × Directive → Option (Reading × Directive)
  | (.start, d) =>
    if c = '[' then some (.span (i + 1), d)
    else if mayStart c then some (.levelOrTarget i, d)
    else none
  | (.levelOrTarget s, d) =>
    if c = '=' then some (.level (i + 1), { d with target := some (slice cs s i) })
    else if c = '[' then some (.span (i + 1), { d with target := some (slice cs s i) })
    else some (.levelOrTarget s, d)
  | (.span s, d) =>
    if c = ']' then some (.target, { d with span := some (slice cs s i) })
    else if c = '\x7b' then
      let name := slice cs s i
      some (.field (i + 1), { d with span := if name = "" then none else some name })
    else some (.span s, d)
  | (.field s, d) =>
    if c = '\x7d' then
      (readField (slice cs s i)).map fun f => (.fields, { d with fields := d.fields ++ [f] })
    else some (.field s, d)
  | (.fields, d) => if c = ']' then some (.target, d) else none
  | (.target, d) => if c = '=' then some (.level (i + 1), d) else none
  | (.level s, d) => some (.level s, d)

/-- What a directive is once its text is over. -/
def finish (cs : List Char) : Reading × Directive → Option Directive
  | (.levelOrTarget s, d) =>
    let word := slice cs s cs.length
    match if word = "" then some .trace else Level.parse? word with
    | some level => some { d with level, target := none }
    | none => some { d with level := .trace, target := some word }
  | (.level s, d) =>
    let word := slice cs s cs.length
    if word = "" then some { d with level := .trace }
    else (Level.parse? word).map fun level => { d with level }
  | (.target, d) => some d
  | _ => none

def isSpace (c : Char) : Bool := c.isWhitespace || c = '\x0b' || c = '\x0c'

def trim (cs : List Char) : List Char :=
  ((cs.dropWhile isSpace).reverse.dropWhile isSpace).reverse

/-- Read one directive. Blanks around it are not looked at, but they count as part of the words at
its ends. -/
def parse? (cs : List Char) : Option Directive :=
  ((trim cs).zipIdx.foldlM (fun state (c, i) => step cs i c state) (.start, {})).bind (finish cs)

end Directive

/-- Read a list of directives. -/
def parse? (s : String) : Option (List Directive) :=
  ((s.toList.splitOn ',').filter (· ≠ [])).mapM Directive.parse?

/-- Directives in the order in which they are tried: those that need no look at spans first. -/
def arrange (ds : List Directive) : List Directive :=
  let dynamic := ds.filter Directive.isDynamic
  let static := ds.filter (fun d => !d.isDynamic) ++ dynamic.filter Directive.isStatic
  static.foldl (fun l d => d.insert l) [] ++ dynamic.foldl (fun l d => d.insert l) []

def text (ds : List Directive) : String := ",".intercalate (ds.map Directive.text)

/-- The filter for a configured level. What cannot be read counts as the usual level. -/
def ofLevel (s : String) : List Directive := arrange ((parse? s).getD [{ level := .info }])

end Gateway.LogFilter
