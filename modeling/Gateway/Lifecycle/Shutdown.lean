/-! The signal to shut down. It is broadcast once, and a flag tells those who come later. -/
namespace Gateway

/-- Hears every broadcast after the ones that were over when it was opened. -/
structure Receiver where
  heardBefore : Nat
  deriving DecidableEq, Repr

/-- A subscription: a receiver together with what the flag said after it was opened. -/
structure ShutdownSignal where
  receiver : Receiver
  triggered : Bool
  deriving DecidableEq, Repr

/-- The coordinator, which everything that has to stop subscribes to. -/
structure Shutdown where
  /-- The flag. -/
  triggered : Bool := false
  /-- How often the signal was broadcast. -/
  broadcasts : Nat := 0
  /-- Whether the coordinator is gone. -/
  isGone : Bool := false
  /-- Subscribers that wait, by number. -/
  waiting : List (Nat × ShutdownSignal) := []
  subscribers : Nat := 0
  deriving DecidableEq, Repr

namespace Shutdown

/-- The first step of a subscription. -/
def openReceiver (s : Shutdown) : Receiver := ⟨s.broadcasts⟩

/-- The second step of a subscription. -/
def readFlag (s : Shutdown) (r : Receiver) : ShutdownSignal := ⟨r, s.triggered⟩

/-- The receiver comes before the look at the flag, so one of them notices a trigger between. -/
def subscribe (s : Shutdown) : ShutdownSignal := s.readFlag s.openReceiver

/-- The first step of a trigger: set the flag, and see whether it was set. -/
def setFlag (s : Shutdown) : Shutdown × Bool := ({ s with triggered := true }, s.triggered)

/-- The second step of a trigger. -/
def broadcast (s : Shutdown) : Shutdown := { s with broadcasts := s.broadcasts + 1 }

/-- Give the signal, once. -/
def trigger (s : Shutdown) : Shutdown :=
  let (s, wasSet) := s.setFlag
  if wasSet then s else s.broadcast

def drop (s : Shutdown) : Shutdown := { s with isGone := true }

/-- Whether a subscriber may go on. -/
def releases (s : Shutdown) (signal : ShutdownSignal) : Bool :=
  signal.triggered || s.broadcasts > signal.receiver.heardBefore || s.isGone

/-- A subscriber that waits for the signal. There is no subscribing to one that is gone. -/
def join (s : Shutdown) : Shutdown :=
  if s.isGone then s
  else
    { s with
      waiting := s.waiting ++ [(s.subscribers, s.subscribe)]
      subscribers := s.subscribers + 1 }

/-- Let everyone go on who may. -/
def settle (s : Shutdown) : Shutdown × List Nat :=
  ({ s with waiting := s.waiting.filter fun w => !s.releases w.2 },
    (s.waiting.filter fun w => s.releases w.2).map (·.1))

end Shutdown
end Gateway
