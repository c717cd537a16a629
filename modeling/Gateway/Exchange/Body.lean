import Gateway.Exchange.Content

/-! Message bodies: pieces in order, possibly ending in a failure, together with the resources
that are held as long as the body lives. -/
namespace Gateway

/-- A resource that lives as long as the body it is tied to. -/
inductive Guard where
  | admission
  | lease (pool ticket : Nat)
  deriving DecidableEq, Repr

structure Body where
  chunks : List Bytes := []
  /-- The stream breaks off with this reason after its last chunk. -/
  failure : Option String := none
  /-- Whether the size is known before the body is read. -/
  sized : Bool := true
  guards : List Guard := []
  deriving DecidableEq, Inhabited

namespace Body

def empty : Body := {}

def ofBytes (b : Bytes) : Body := { chunks := if b = [] then [] else [b] }

/-- A stream of unknown size. -/
def stream (chunks : List Bytes) (failure : Option String := none) : Body :=
  { chunks, failure, sized := false }

/-- All bytes before a failure. -/
def bytes (b : Body) : Bytes := b.chunks.flatten

def knownSize? (b : Body) : Option Nat := if b.sized then some b.bytes.length else none

/-- Whether the body is known to be over before it is read. -/
def isOver (b : Body) : Bool := b.sized && b.chunks.isEmpty

def guarded (b : Body) (g : Guard) : Body := { b with guards := b.guards ++ [g] }

/-- The whole body, or the reason it broke off. -/
def read (b : Body) : Except String Bytes :=
  match b.failure with
  | some reason => .error reason
  | none => .ok b.bytes

/-- Read a body into buffers. A declared size over the limit is refused before any byte is
read. -/
def buffer (b : Body) (limits : ContentLimits) (declared : Option Nat) :
    Except Failure ContentBuffers :=
  if declared.any (· > limits.max) then .error (.contentTooLarge limits.max)
  else do
    let content ← (ContentBuffers.mk limits [] 0).pushAll b.chunks
    match b.failure with
    | some reason => .error (.malformedContent reason)
    | none => pure content

end Body

/-- The buffers as a body again. -/
def ContentBuffers.toBody (c : ContentBuffers) : Body := .stream c.buffers

end Gateway
