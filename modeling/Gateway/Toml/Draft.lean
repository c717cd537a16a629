import Gateway.Toml.Value

/-! A table while it is being read. What is there already decides whether more may be added: a table
is defined once, and a key is given once. -/
namespace Gateway.Toml

/-- How a table came about. -/
inductive Origin where
  /-- By its own header, or written in one piece. -/
  | header
  /-- By the header of a table inside of it. -/
  | inner
  /-- By a dotted key. -/
  | dotted
  deriving DecidableEq, Repr

inductive Draft where
  | value (v : Value)
  | table (origin : Origin) (entries : List (String × Draft))
  /-- An array of tables by headers. -/
  | tables (items : List Draft)
  deriving Inhabited

abbrev DraftTable := List (String × Draft)

namespace Draft

mutual

/-- The finished value. -/
def toValue : Draft → Value
  | .value v => v
  | .table _ entries => (Value.table (entryValues entries)).sorted
  | .tables items => .array (itemValues items)

def entryValues : List (String × Draft) → Table
  | [] => []
  | (k, d) :: r => (k, d.toValue) :: entryValues r

def itemValues : List Draft → List Value
  | [] => []
  | d :: r => d.toValue :: itemValues r

end

/-- Replace the value at a key, or add it. -/
def set (entries : DraftTable) (key : String) (d : Draft) : DraftTable :=
  if entries.any (·.1 = key) then entries.map fun e => if e.1 = key then (key, d) else e
  else entries ++ [(key, d)]

/-- Change the table at the end of a path. Tables that are not there yet come to be, by a dotted
key or by a header; a dotted key does not go into a table with a header. In an array of tables
the last one is meant. -/
def update (byKey : Bool) (f : Origin → DraftTable → Option DraftTable) :
    List String → Origin → DraftTable → Option DraftTable
  | [], origin, entries => f origin entries
  | key :: path, _, entries =>
    match entries.lookup key with
    | none => do
      let origin := if byKey then .dotted else .inner
      let inner ← update byKey f path origin []
      pure (set entries key (.table origin inner))
    | some (.table origin inner) => do
      if byKey ∧ origin = .header then none
      else
        let inner ← update byKey f path origin inner
        pure (set entries key (.table origin inner))
    | some (.tables items) =>
      match items.getLast? with
      | some (.table origin inner) => do
        let inner ← update byKey f path origin inner
        pure (set entries key (.tables (items.dropLast ++ [.table origin inner])))
      | _ => none
    | some (.value _) => none

/-- Give a key its value in a table. Its path leads through tables made by dotted keys only. -/
def putKey (path : List String) (key : String) (v : Value) (origin : Origin)
    (entries : DraftTable) : Option DraftTable :=
  update true (fun origin entries =>
    if (origin = .dotted) = (path = []) ∨ entries.any (·.1 = key) then none
    else some (entries ++ [(key, .value v)])) path origin entries

/-- A header opens a table that is new, or that only headers inside of it have named. -/
def openTable (key : String) (entries : DraftTable) : Option DraftTable :=
  match entries.lookup key with
  | none => some (set entries key (.table .header []))
  | some (.table .inner inner) => some (set entries key (.table .header inner))
  | some _ => none

/-- A header in two brackets adds a table to an array made by such headers. -/
def openItem (key : String) (entries : DraftTable) : Option DraftTable :=
  match entries.lookup key with
  | none => some (set entries key (.tables [.table .header []]))
  | some (.tables items) => some (set entries key (.tables (items ++ [.table .header []])))
  | some _ => none

/-- Work in the table under a header. -/
def inside (path : List String) (f : Origin → DraftTable → Option DraftTable)
    (root : DraftTable) : Option DraftTable := update false f path .header root

end Draft
end Gateway.Toml
