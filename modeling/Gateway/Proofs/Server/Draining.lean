import Mathlib.Data.List.Perm.Subperm
import Gateway.Proofs.Server.Gate

/-! Admission in its two steps. Between finding the gate open and taking a place others may close the gate
and see it drained, so that a request may still come after that, but none that did not find it open. -/
namespace Gateway

/-- A gate with the requests that have found it open and are about to take a place. -/
structure Doorway where
  gate : Gate
  checking : List Nat := []

namespace Doorway

inductive Move where
  /-- A request finds out whether the gate is open. -/
  | check (request : Nat)
  /-- It takes a place, or is turned away because there is none. -/
  | take (request : Nat)
  | act (m : Gate.Move)
  deriving DecidableEq

def ofLimit (places : Nat) : Doorway := { gate := .ofLimit places }

/-- Take a place if there is one. -/
def taken (g : Gate) (request : Nat) : Gate :=
  match g.takePlace request with
  | .ok g => g
  | .error _ => g

def step (d : Doorway) : Move → Doorway
  | .check request =>
    match d.gate.check with
    | .ok _ => { d with checking := d.checking ++ [request] }
    | .error _ => d
  | .take request =>
    if request ∈ d.checking then
      { gate := taken d.gate request, checking := d.checking.erase request }
    else d
  | .act m => { d with gate := d.gate.step m }

def run (d : Doorway) (moves : List Move) : Doorway := moves.foldl step d

/-- All who are inside or about to be. -/
def coming (d : Doorway) : List Nat := d.gate.holders ++ d.checking

variable {places request : Nat} {d : Doorway} {g : Gate} {m : Move}

lemma taken_cases (g : Gate) (request : Nat) :
    taken g request = g ∨ 0 < g.free ∧ taken g request =
      { g with
        free := g.free - 1, inFlight := g.inFlight + 1, holders := g.holders ++ [request] } := by
  unfold taken Gate.takePlace
  by_cases full : g.free = 0
  · rw [if_pos full]
    exact .inl rfl
  · rw [if_neg full]
    exact .inr ⟨Nat.pos_of_ne_zero full, rfl⟩

/-- Without anyone in between the two steps are an admission. -/
lemma step_check_take (new : request ∉ d.checking) :
    (d.step (.check request)).step (.take request) = { d with gate := d.gate.enter request } := by
  cases open_ : d.gate.accepting with
  | false =>
    have turned : d.gate.check = .error .draining := by
      rw [Gate.check, open_]
      rfl
    have stays : d.gate.enter request = d.gate := by
      rw [Gate.enter, Gate.letIn, turned]
      rfl
    have first : d.step (.check request) = d := by
      rw [step, turned]
    rw [first, step, if_neg new, stays]
  | true =>
    have passes : d.gate.check = .ok () := by
      rw [Gate.check, open_]
      rfl
    have enters : d.gate.enter request = taken d.gate request := by
      rw [Gate.enter, Gate.letIn, passes]
      rfl
    have first : d.step (.check request) = { d with checking := d.checking ++ [request] } := by
      rw [step, passes]
    have back : (d.checking ++ [request]).erase request = d.checking := by
      rw [List.erase_append_right _ new, List.erase_cons_head, List.append_nil]
    rw [first, step, if_pos (List.mem_append_right _ List.mem_cons_self), enters]
    dsimp only
    rw [back]

/-- The gate keeps its places, whoever is between his two steps. -/
def Kept (places : Nat) (d : Doorway) : Prop := ∃ l, Gate.Keeps places l d.gate

lemma Kept.step (h : d.Kept places) (m : Move) : (d.step m).Kept places := by
  obtain ⟨l, keeps⟩ := h
  cases m with
  | check request =>
    unfold Doorway.step
    dsimp only
    split <;> exact ⟨l, keeps⟩
  | take request =>
    unfold Doorway.step
    dsimp only
    split
    · change ∃ l, Gate.Keeps places l (taken d.gate request)
      obtain same | ⟨room, took⟩ := taken_cases d.gate request
      · rw [same]
        exact ⟨l, keeps⟩
      · rw [took]
        exact ⟨_, keeps.take room⟩
    · exact ⟨l, keeps⟩
  | act m => exact ⟨_, keeps.step m⟩

lemma Kept.run (h : d.Kept places) (moves : List Move) : (d.run moves).Kept places := by
  induction moves generalizing d with
  | nil => exact h
  | cons m rest ih => exact ih (h.step m)

lemma kept_ofLimit (places : Nat) : (ofLimit places).Kept places := ⟨_, .ofLimit⟩

lemma Kept.inFlight (h : d.Kept places) : d.gate.inFlight = d.gate.holders.length := by
  obtain ⟨l, keeps⟩ := h
  rw [keeps.inFlight, keeps.holders]

lemma check_of_shut (shut : g.accepting = false) : g.check = .error .draining := by
  rw [Gate.check, shut]
  rfl

lemma letIn_of_shut (shut : g.accepting = false) : g.letIn request = .error .draining := by
  rw [Gate.letIn, check_of_shut shut]
  rfl

lemma step_check_of_shut (shut : d.gate.accepting = false) : d.step (.check request) = d := by
  rw [step, check_of_shut shut]

/-- A closed gate lets in nobody of itself. -/
lemma shut_act (shut : g.accepting = false) (m : Gate.Move) :
    (g.step m).accepting = false ∧ (g.step m).holders.Sublist g.holders := by
  cases m with
  | letIn request =>
    have stays : g.step (.letIn request) = g := by
      rw [Gate.step, Gate.enter, letIn_of_shut shut]
    rw [stays]
    exact ⟨shut, .refl _⟩
  | release request =>
    change (g.release request).accepting = false ∧ (g.release request).holders.Sublist g.holders
    unfold Gate.release
    split
    · exact ⟨shut, List.erase_sublist⟩
    · exact ⟨shut, .refl _⟩
  | close => exact ⟨rfl, .refl _⟩
  | terminate => exact ⟨shut, .refl _⟩
  | wait ticket w => exact ⟨shut, .refl _⟩
  | settle now => exact ⟨shut, .refl _⟩

/-- After the gate was closed nobody comes who was not on the way. -/
theorem shut_step (shut : d.gate.accepting = false) (m : Move) :
    (d.step m).gate.accepting = false ∧ (d.step m).coming.Subperm d.coming := by
  cases m with
  | check request =>
    rw [step_check_of_shut shut]
    exact ⟨shut, .refl _⟩
  | take request =>
    unfold step
    dsimp only
    split
    · next waits =>
      have rest : (d.checking.erase request).Subperm d.checking := List.erase_sublist.subperm
      obtain same | ⟨-, took⟩ := taken_cases d.gate request
      · rw [same]
        exact ⟨shut, (List.subperm_append_left _).mpr rest⟩
      · rw [took]
        refine ⟨shut, List.Perm.subperm ?_⟩
        -- the request only changes sides
        have moved : (request :: d.checking.erase request).Perm d.checking :=
          (List.perm_cons_erase waits).symm
        unfold coming
        dsimp only
        rw [List.append_assoc]
        exact moved.append_left _
    · exact ⟨shut, .refl _⟩
  | act m =>
    obtain ⟨still, left⟩ := shut_act shut m
    exact ⟨still, (left.append_right _).subperm⟩

theorem shut_run (shut : d.gate.accepting = false) (moves : List Move) :
    (d.run moves).gate.accepting = false ∧ (d.run moves).coming.Subperm d.coming := by
  induction moves generalizing d with
  | nil => exact ⟨shut, .refl _⟩
  | cons m rest ih =>
    obtain ⟨next, less⟩ := shut_step shut m
    obtain ⟨last, lesser⟩ := ih next
    exact ⟨last, lesser.trans less⟩

lemma shut_of_close {moves : List Move} (closed : .act .close ∈ moves) :
    (d.run moves).gate.accepting = false := by
  obtain ⟨before, after, rfl⟩ := List.append_of_mem closed
  rw [run, List.foldl_append, List.foldl_cons]
  exact (shut_run rfl after).1

/-- When a drain has been complete after the gate was closed, nobody is inside, and nobody comes any more
but those who were then between their two steps. If nobody was, nobody comes any more. Who asks after the
close is turned away. -/
theorem coming_after_drain (places now due : Nat) (before after : List Move)
    (closed : .act .close ∈ before)
    (drained : ((ofLimit places).run before).gate.news? now (.drain due) = some (.drained true)) :
    let d := (ofLimit places).run before
    let e := d.run after
    (d.gate.holders = [] ∧ d.gate.inFlight = 0) ∧
      e.coming.Subperm d.checking ∧
      e.gate.inFlight = e.gate.holders.length ∧
      (∀ request, e.step (.check request) = e ∧ e.gate.letIn request = .error .draining) ∧
      (d.checking = [] → e.gate.inFlight = 0 ∧ ∀ m, (e.step m).gate.holders = []) := by
  intro d e
  have shut : d.gate.accepting = false := shut_of_close closed
  have idle : d.gate.inFlight = 0 := Gate.inFlight_of_news drained
  have kept : d.Kept places := (kept_ofLimit places).run before
  have nobody : d.gate.holders = [] := List.eq_nil_of_length_eq_zero (kept.inFlight.symm.trans idle)
  have coming : d.coming = d.checking := by rw [Doorway.coming, nobody, List.nil_append]
  have later (moves : List Move) : (d.run moves).coming.Subperm d.checking :=
    coming ▸ (shut_run shut moves).2
  have still : e.gate.accepting = false := (shut_run shut after).1
  refine ⟨⟨nobody, idle⟩, later after, (kept.run after).inFlight, fun request => ?_, fun none_between => ?_⟩
  · exact ⟨step_check_of_shut still, letIn_of_shut still⟩
  · have empty (moves : List Move) : (d.run moves).gate.holders = [] := by
      have all := none_between ▸ later moves
      exact (List.append_eq_nil_iff.mp (List.subperm_nil.mp all)).1
    refine ⟨?_, fun m => ?_⟩
    · rw [(kept.run after).inFlight, empty after]
      rfl
    · have next : e.step m = d.run (after ++ [m]) := by
        rw [run, List.foldl_append]
        rfl
      rw [next]
      exact empty _

/-- One of two requests has left when the gate is closed; the other comes after it was found empty, and no
third one. -/
theorem coming_after_drain_of_two :
    let before : List Move :=
      [.check 0, .check 1, .take 0, .act (.release 0), .act .close]
    let d := (ofLimit 1).run before
    let e := d.run [.check 2, .take 1, .take 2]
    .act .close ∈ before ∧ d.gate.news? 0 (.drain 0) = some (.drained true) ∧
      d.gate.inFlight = 0 ∧ d.checking = [1] ∧ e.gate.inFlight = 1 ∧ e.gate.holders = [1] ∧
      e.coming.Subperm d.checking := by
  intro before d e
  have closed : .act .close ∈ before := by decide
  have drained : d.gate.news? 0 (.drain 0) = some (.drained true) := by decide
  have after := coming_after_drain 1 0 0 before [.check 2, .take 1, .take 2] closed drained
  exact ⟨closed, drained, after.1.2, by decide, by decide, by decide, after.2.1⟩

end Doorway
end Gateway
