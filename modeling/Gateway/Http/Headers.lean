import Gateway.Http.Token

/-! Header lists. A name may have several values; values of one name keep the order in which they
were appended. -/
namespace Gateway

/-- A header value is any run of bytes without control characters other than tab. -/
def isHeaderValue (b : Bytes) : Bool := b.all fun x => x = 9 || (0x20 ≤ x && x ≠ 0x7F)

/-- Header names are kept in lower case. -/
def headerName? (s : String) : Option String :=
  if s.toList ≠ [] ∧ s.toList.length ≤ 65535 ∧ s.toList.all isTokenChar then
    some (String.ofList (s.toList.map Char.toLower))
  else none

/-- The value a text makes, if it makes one. -/
def headerValue? (s : String) : Option Bytes :=
  let b := Bytes.ofText s
  if isHeaderValue b then some b else none

/-- Headers in order, names in lower case. -/
structure Headers where
  entries : List (String × Bytes) := []
  deriving DecidableEq, Inhabited

namespace Headers

def empty : Headers := {}

/-- All values of a name. -/
def values (h : Headers) (name : String) : List Bytes :=
  (h.entries.filter (·.1 = name)).map (·.2)

def first? (h : Headers) (name : String) : Option Bytes := (h.values name).head?

/-- The first value, when it can be read as text. -/
def firstText? (h : Headers) (name : String) : Option String :=
  (h.first? name).bind Bytes.visibleText?

def has (h : Headers) (name : String) : Bool := h.entries.any (·.1 = name)

def append (h : Headers) (name : String) (value : Bytes) : Headers :=
  ⟨h.entries ++ [(name, value)]⟩

def remove (h : Headers) (name : String) : Headers := ⟨h.entries.filter (·.1 ≠ name)⟩

def removeAll (h : Headers) (names : List String) : Headers :=
  ⟨h.entries.filter fun e => e.1 ∉ names⟩

/-- Replace all values of a name by one. -/
def insert (h : Headers) (name : String) (value : Bytes) : Headers :=
  (h.remove name).append name value

def insertText (h : Headers) (name text : String) : Headers := h.insert name (Bytes.ofText text)

/-- Insert a text if it makes a header value. -/
def insertText? (h : Headers) (name text : String) : Headers :=
  match headerValue? text with
  | some v => h.insert name v
  | none => h

/-- Add a value to a name that has none. -/
def insertIfAbsent (h : Headers) (name : String) (value : Bytes) : Headers :=
  if h.has name then h else h.append name value

/-- Every name in `other` takes the values it has there. -/
def overlay (h other : Headers) : Headers :=
  ⟨(h.entries.filter fun e => !other.has e.1) ++ other.entries⟩

/-- Entries by name, values of one name in their order. -/
def sorted (h : Headers) : List (String × Bytes) :=
  h.entries.mergeSort fun a b => decide (a.1 ≤ b.1)

@[simp] theorem values_append (h : Headers) (name m : String) (v : Bytes) :
    (h.append m v).values name = h.values name ++ if m = name then [v] else [] := by
  by_cases e : m = name <;> simp [append, values, e]

@[simp] theorem values_remove_self (h : Headers) (name : String) :
    (h.remove name).values name = [] := by
  simp [remove, values, List.filter_filter]

theorem values_remove_of_ne (h : Headers) {name m : String} (e : m ≠ name) :
    (h.remove m).values name = h.values name := by
  simp only [remove, values, List.filter_filter]
  congr 1
  apply List.filter_congr
  intro x _
  by_cases hx : x.1 = name <;> simp [hx, e.symm]

@[simp] theorem values_insert_self (h : Headers) (name : String) (v : Bytes) :
    (h.insert name v).values name = [v] := by simp [insert]

theorem values_insert_of_ne (h : Headers) {name m : String} (e : m ≠ name) (v : Bytes) :
    (h.insert m v).values name = h.values name := by
  simp [insert, values_remove_of_ne h e, e]

end Headers
end Gateway
