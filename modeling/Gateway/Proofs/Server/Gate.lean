import Mathlib.Data.List.Basic
import Gateway.Server.Gate

/-! The gate over time. What it counts is who was let in and has not left, and whether it lets someone
in depends on that and on whether it was closed. -/
namespace Gateway.Gate

/-- What is done with a gate, one thing at a time. -/
inductive Move where
  | letIn (request : Nat)
  | release (request : Nat)
  | close
  | terminate
  | wait (ticket : Nat) (w : GateWait)
  | settle (now : Nat)
  deriving DecidableEq

/-- The gate after a request asked to be let in. One that is turned away changes nothing. -/
def enter (g : Gate) (request : Nat) : Gate :=
  match g.letIn request with
  | .ok g => g
  | .error _ => g

def step (g : Gate) : Move → Gate
  | .letIn request => g.enter request
  | .release request => g.release request
  | .close => g.close
  | .terminate => g.terminate
  | .wait ticket w => g.wait ticket w
  | .settle now => (g.settle now).1

def run (g : Gate) (moves : List Move) : Gate := moves.foldl step g

/-- What there is to know about a gate: who is inside, and whether it was closed. -/
structure Ledger where
  inside : List Nat := []
  closed : Bool := false

namespace Ledger

/-- Why a request would not be let in. Being closed comes first. -/
def rejection? (places : Nat) (l : Ledger) : Option Rejection :=
  if l.closed then some .draining
  else if l.inside.length = places then some .limitReached
  else none

def enter (places : Nat) (l : Ledger) (request : Nat) : Ledger :=
  match l.rejection? places with
  | none => { l with inside := l.inside ++ [request] }
  | some _ => l

def step (places : Nat) (l : Ledger) : Move → Ledger
  | .letIn request => l.enter places request
  | .release request => { l with inside := l.inside.erase request }
  | .close => { l with closed := true }
  | _ => l

def ofMoves (places : Nat) (moves : List Move) : Ledger := moves.foldl (step places) {}

variable {places : Nat} {l : Ledger} {moves : List Move}

lemma closed_step {m : Move} : (l.step places m).closed = true ↔ l.closed = true ∨ .close = m := by
  cases m with
  | letIn request =>
    change (l.enter places request).closed = true ↔ _
    unfold enter
    split <;> simp
  | close => simp [step]
  | _ => simp [step]

lemma closed_foldl :
    (moves.foldl (step places) l).closed = true ↔ l.closed = true ∨ .close ∈ moves := by
  induction moves generalizing l with
  | nil => simp
  | cons m rest ih => rw [List.foldl_cons, ih, closed_step, List.mem_cons, or_assoc]

lemma closed_ofMoves : (ofMoves places moves).closed = true ↔ .close ∈ moves := by
  rw [ofMoves, closed_foldl]
  exact or_iff_right Bool.false_ne_true

end Ledger

/-- The gate has so many places and keeps them as the ledger says. -/
structure Keeps (places : Nat) (l : Ledger) (g : Gate) : Prop where
  holders : g.holders = l.inside
  inFlight : g.inFlight = l.inside.length
  free : g.free + l.inside.length = places
  accepting : g.accepting = !l.closed

namespace Keeps
variable {places : Nat} {l : Ledger} {g : Gate} {request : Nat} {m : Move}

lemma bounded (h : Keeps places l g) : l.inside.length ≤ places := by
  have := h.free
  omega

/-- Who is not turned away finds a place. -/
lemma room (h : Keeps places l g) (welcome : l.rejection? places = none) : 0 < g.free := by
  have free := h.free
  have not_full : l.inside.length ≠ places := fun full => by
    unfold Ledger.rejection? at welcome
    rw [if_pos full] at welcome
    split at welcome <;> cases welcome
  omega

/-- Admission, as the ledger has it. -/
theorem letIn (h : Keeps places l g) (request : Nat) : g.letIn request = match l.rejection? places with
    | some rejection => .error rejection
    | none => .ok
      { g with free := g.free - 1, inFlight := g.inFlight + 1, holders := g.holders ++ [request] } := by
  have free : g.free = 0 ↔ l.inside.length = places := by
    have := h.free
    omega
  unfold Gate.letIn check takePlace Ledger.rejection?
  rw [h.accepting]
  cases l.closed with
  | true => rfl
  | false =>
    by_cases full : l.inside.length = places
    · simp only [free.mpr full, full]
      rfl
    · rw [if_neg (mt free.mp full)]
      simp only [full]
      rfl

lemma release (h : Keeps places l g) :
    Keeps places { l with inside := l.inside.erase request } (g.release request) := by
  unfold Gate.release
  rw [h.holders]
  have free := h.free
  by_cases inside : request ∈ l.inside
  · have pos := List.length_pos_of_mem inside
    have length := List.length_erase_of_mem inside
    rw [if_pos inside]
    exact {
      holders := rfl
      inFlight := length.symm ▸ congrArg (· - 1) h.inFlight
      free := by
        change g.free + 1 + (l.inside.erase request).length = places
        omega
      accepting := h.accepting }
  · rw [if_neg inside, List.erase_of_not_mem inside]
    exact h

/-- A place is taken, whether or not the gate is open. -/
lemma take (h : Keeps places l g) (room : 0 < g.free) :
    Keeps places { l with inside := l.inside ++ [request] }
      { g with
        free := g.free - 1, inFlight := g.inFlight + 1, holders := g.holders ++ [request] } := by
  have free := h.free
  have length : (l.inside ++ [request]).length = l.inside.length + 1 := List.length_append
  exact {
    holders := congrArg (· ++ [request]) h.holders
    inFlight := length.symm ▸ congrArg (· + 1) h.inFlight
    free := by
      change g.free - 1 + (l.inside ++ [request]).length = places
      omega
    accepting := h.accepting }

lemma enter (h : Keeps places l g) (request : Nat) :
    Keeps places (l.enter places request) (g.enter request) := by
  unfold Gate.enter Ledger.enter
  rw [h.letIn]
  cases rejected : l.rejection? places with
  | some rejection => exact h
  | none => exact h.take (h.room rejected)

/-- A move is entered in the ledger. -/
theorem step (h : Keeps places l g) (m : Move) : Keeps places (l.step places m) (g.step m) := by
  cases m with
  | letIn request => exact h.enter request
  | release request => exact h.release
  | close => exact { h with accepting := rfl }
  | terminate => exact { h with }
  | wait ticket w => exact { h with }
  | settle now => exact { h with }

lemma ofLimit : Keeps places {} (.ofLimit places) := ⟨rfl, rfl, rfl, rfl⟩

theorem run (h : Keeps places l g) (moves : List Move) :
    Keeps places (moves.foldl (Ledger.step places) l) (g.run moves) := by
  induction moves generalizing l g with
  | nil => exact h
  | cons m rest ih => exact ih (h.step m)

end Keeps

lemma inFlight_of_news {g : Gate} {now : Nat} {w : GateWait}
    (ended : g.news? now w = some (.drained true)) : g.inFlight = 0 := by
  unfold news? at ended
  split at ended
  · split at ended
    · next idle => exact idle
    · split at ended <;> cases ended
  · split at ended <;> cases ended

/-- Only when no request is in flight is a wait for that over for good. -/
lemma inFlight_of_drained {g : Gate} {now ticket : Nat}
    (h : (ticket, .drained true) ∈ (g.settle now).2) : g.inFlight = 0 := by
  obtain ⟨w, -, news⟩ := List.mem_filterMap.mp h
  obtain ⟨found, ended, same⟩ := Option.map_eq_some_iff.mp news
  obtain rfl := (Prod.mk.inj same).2
  exact inFlight_of_news ended

/-- The account of a gate with so many places, now `g`, after some moves: who is inside is counted, all
other places are free, and a request is turned away by a closed gate, else by a full one, else let in. -/
structure Accounted (places : Nat) (moves : List Move) (g : Gate) : Prop where
  bounded : (Ledger.ofMoves places moves).inside.length ≤ places
  inFlight : g.inFlight = (Ledger.ofMoves places moves).inside.length
  free : g.free + (Ledger.ofMoves places moves).inside.length = places
  letIn : ∀ request, g.letIn request =
    if .close ∈ moves then .error .draining
    else if (Ledger.ofMoves places moves).inside.length = places then .error .limitReached
    else .ok
      { g with free := g.free - 1, inFlight := g.inFlight + 1, holders := g.holders ++ [request] }
  drained : ∀ now ticket, (ticket, .drained true) ∈ (g.settle now).2 → g.inFlight = 0

lemma accounted_run (places : Nat) (moves : List Move) :
    Accounted places moves ((ofLimit places).run moves) := by
  have keeps : Keeps places (Ledger.ofMoves places moves) ((ofLimit places).run moves) :=
    Keeps.ofLimit.run moves
  have closed : (Ledger.ofMoves places moves).closed = true ↔ .close ∈ moves := Ledger.closed_ofMoves
  refine ⟨keeps.bounded, keeps.inFlight, keeps.free, fun request => ?_, fun _ _ => inFlight_of_drained⟩
  rw [keeps.letIn]
  unfold Ledger.rejection?
  by_cases shut : .close ∈ moves
  · rw [if_pos (closed.mpr shut), if_pos shut]
  · rw [if_neg (mt closed.mp shut), if_neg shut]
    by_cases full : (Ledger.ofMoves places moves).inside.length = places
    · rw [if_pos full, if_pos full]
    · rw [if_neg full, if_neg full]

end Gateway.Gate
