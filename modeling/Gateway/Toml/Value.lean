import Gateway.Number.Double
import Gateway.Toml.Datetime

/-! The values of configuration texts. Keys of a table are distinct; a table that was read has
them in order. -/
namespace Gateway.Toml

inductive Value where
  | string (s : String)
  | integer (n : Int)
  | float (x : Double)
  | boolean (b : Bool)
  | datetime (d : Datetime)
  | array (items : List Value)
  | table (entries : List (String × Value))
  deriving Inhabited

abbrev Table := List (String × Value)

namespace Value

/-- The key under which a date is found where a table is expected. -/
def datetimeKey : String := "$__toml_private_datetime"

def string? : Value → Option String
  | string s => some s
  | _ => none

def boolean? : Value → Option Bool
  | boolean b => some b
  | _ => none

def integer? : Value → Option Int
  | integer n => some n
  | _ => none

def array? : Value → Option (List Value)
  | array items => some items
  | _ => none

/-- The entries of a table. A date counts as a table of one entry. -/
def entries? : Value → Option Table
  | table entries => some entries
  | datetime d => some [(datetimeKey, .string d.text)]
  | _ => none

def isTable : Value → Bool
  | table _ => true
  | _ => false

/-- A table with its entries in the order of their keys. -/
def sorted : Value → Value
  | table entries => table (entries.mergeSort fun a b => decide (a.1 ≤ b.1))
  | v => v

/-- A whole number from zero up to `most`. -/
def natural? (most : Nat) (v : Value) : Option Nat :=
  v.integer?.bind fun n => if 0 ≤ n ∧ n ≤ most then some n.toNat else none

end Value

end Gateway.Toml
