import Gateway.Failure

/-! Content held in buffers of one size, up to a limit. What goes over the limit is refused and
leaves the content as it was. -/
namespace Gateway

/-- Limits on request and response content, in bytes. -/
structure ContentLimits where
  max : Nat := 16777216
  buffer : Nat := 16384
  buffer_pos : 0 < buffer := by decide
  deriving DecidableEq

namespace ContentLimits

/-- A buffer holds at least one byte. -/
def ofSizes (max buffer : Nat) : ContentLimits :=
  ⟨max, Nat.max buffer 1, Nat.lt_of_lt_of_le (by decide) (Nat.le_max_right ..)⟩

def maxBuffers (l : ContentLimits) : Nat := 1 + l.max / l.buffer

end ContentLimits

/-- Buffered content. The newest buffer comes first. -/
structure ContentBuffers where
  limits : ContentLimits
  newestFirst : List Bytes := []
  size : Nat := 0

namespace ContentBuffers

def isEmpty (c : ContentBuffers) : Bool := c.size == 0

def count (c : ContentBuffers) : Nat := c.newestFirst.length

/-- The buffers in order. -/
def buffers (c : ContentBuffers) : List Bytes := c.newestFirst.reverse

/-- The content in one piece. -/
def toBytes (c : ContentBuffers) : Bytes := c.buffers.flatten

/-- Fill the newest buffer, then new ones, until nothing is left to place. -/
def pour (l : ContentLimits) (bs : List Bytes) (rest : Bytes) : Option (List Bytes) :=
  match rest with
  | [] => some bs
  | x :: xs =>
    match bs with
    | b :: older =>
      if b.length < l.buffer then
        let room := l.buffer - b.length
        pour l ((b ++ (x :: xs).take room) :: older) ((x :: xs).drop room)
      else if (b :: older).length < l.maxBuffers then
        pour l ((x :: xs).take l.buffer :: b :: older) ((x :: xs).drop l.buffer)
      else none
    | [] =>
      if 0 < l.maxBuffers then pour l [(x :: xs).take l.buffer] ((x :: xs).drop l.buffer)
      else none
termination_by rest.length
decreasing_by all_goals have := l.buffer_pos; simp_all; omega

/-- Append a chunk. -/
def push (c : ContentBuffers) (chunk : Bytes) : Except Failure ContentBuffers :=
  if c.size + chunk.length > c.limits.max then .error (.contentTooLarge c.limits.max)
  else match pour c.limits c.newestFirst chunk with
    | some bs => .ok { c with newestFirst := bs, size := c.size + chunk.length }
    | none => .error (.contentTooLarge c.limits.max)

def pushAll (c : ContentBuffers) (chunks : List Bytes) : Except Failure ContentBuffers :=
  chunks.foldlM push c

end ContentBuffers
end Gateway
