import Gateway.Balance.Host

/-! The choice among healthy hosts: the one with the most free connections, and of those the
first from a cursor that moves on by one at each choice, so idle hosts alternate. -/
namespace Gateway.Rotation

/-- The positions below `n`, from the cursor on and around. -/
def order (n cursor : Nat) : List Nat := (List.range n).map fun i => (cursor + i) % n

def isCandidate (h : Host) : Bool := h.isHealthy && h.available > 0

/-- Of two candidates the one with more room; the earlier one when they are equal. -/
def better (best : Option (Nat × Nat)) (c : Nat × Nat) : Option (Nat × Nat) :=
  match best with
  | none => some c
  | some b => if c.2 > b.2 then some c else some b

/-- Candidates in rotation, each with its free connections. -/
def candidates (hosts : List Host) (cursor : Nat) : List (Nat × Nat) :=
  (order hosts.length cursor).filterMap fun i =>
    (hosts[i]?.filter isCandidate).map fun h => (i, h.available)

/-- The position of the chosen host. -/
def choose (hosts : List Host) (cursor : Nat) : Option Nat :=
  ((candidates hosts cursor).foldl better none).map (·.1)

/-- The choice and the cursor after it. Without hosts nothing moves. The cursor counts choices and is not
brought round after `2 ^ 64` of them, as it would be in a word of 64 bits: see
`Pool.Moment.order_eq_orderByWord`. -/
def next (hosts : List Host) (cursor : Nat) : Option Nat × Nat :=
  (choose hosts cursor, if hosts.isEmpty then cursor else cursor + 1)

end Gateway.Rotation
