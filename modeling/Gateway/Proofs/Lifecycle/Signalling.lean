import Mathlib.Data.List.Basic
import Mathlib.Logic.Relation
import Gateway.Lifecycle.Shutdown

/-! Subscriptions and triggers that run side by side, each in two steps. The signal reaches every
subscriber, whichever way the steps fall. -/
namespace Gateway

/-- A call in progress, by the step it takes next. -/
inductive ShutdownCall
  | listen
  | look (receiver : Receiver)
  | mark
  | send
  deriving DecidableEq

/-- What a call came to: a subscription, or a trigger that gave the signal or came too late. -/
inductive ShutdownAnswer
  | signal (signal : ShutdownSignal)
  | trigger (effective : Bool)
  deriving DecidableEq

namespace ShutdownCall
variable {s : Shutdown}

/-- One step of a call. -/
def advance (s : Shutdown) : ShutdownCall → Shutdown × (ShutdownCall ⊕ ShutdownAnswer)
  | listen => (s, .inl (look s.openReceiver))
  | look r => (s, .inr (.signal (s.readFlag r)))
  | mark => (s.setFlag.1, if s.setFlag.2 then .inr (.trigger false) else .inl send)
  | send => (s.broadcast, .inr (.trigger true))

/-- A call that is not disturbed. -/
inductive Alone : Shutdown → ShutdownCall → Shutdown → ShutdownAnswer → Prop
  | done {s s' : Shutdown} {call : ShutdownCall} {answer : ShutdownAnswer}
      (step : call.advance s = (s', .inr answer)) : Alone s call s' answer
  | more {s s' s'' : Shutdown} {call next : ShutdownCall} {answer : ShutdownAnswer}
      (step : call.advance s = (s', .inl next)) (rest : Alone s' next s'' answer) :
      Alone s call s'' answer

/-- Undisturbed, the steps of the two calls are what the calls do. -/
lemma alone_subscribe : Alone s listen s (.signal s.subscribe) := .more rfl (.done rfl)

lemma alone_trigger : Alone s mark s.trigger (.trigger !s.triggered) := by
  cases set : s.triggered with
  | true =>
    have late : s.trigger = s.setFlag.1 := by simp [Shutdown.trigger, Shutdown.setFlag, set]
    exact .done (by simp [advance, late, Shutdown.setFlag, set])
  | false =>
    have first : s.trigger = s.setFlag.1.broadcast := by
      simp [Shutdown.trigger, Shutdown.setFlag, set]
    have marked : mark.advance s = (s.setFlag.1, .inl send) := by simp [advance, Shutdown.setFlag, set]
    exact .more marked (.done (by rw [first]; rfl))

end ShutdownCall

/-- The coordinator with the calls in progress and the answers of those that are over. -/
structure Signalling where
  shutdown : Shutdown := {}
  calls : List ShutdownCall := []
  ended : List ShutdownAnswer := []
  deriving DecidableEq

namespace Signalling

/-- A call begins, one of those in progress takes a step, or the coordinator goes. Nobody calls one that
is gone, and none goes during a call. -/
inductive Step (l : Signalling) : Signalling → Prop
  | subscribe (here : l.shutdown.isGone = false) : Step l { l with calls := l.calls ++ [.listen] }
  | trigger (here : l.shutdown.isGone = false) : Step l { l with calls := l.calls ++ [.mark] }
  | go {before after : List ShutdownCall} {call : ShutdownCall}
      (running : l.calls = before ++ call :: after) : Step l
      { shutdown := (call.advance l.shutdown).1
        calls := before ++ (call.advance l.shutdown).2.getLeft?.toList ++ after
        ended := (call.advance l.shutdown).2.getRight?.toList ++ l.ended }
  | drop (idle : l.calls = []) : Step l { l with shutdown := l.shutdown.drop }

/-- One state comes after another. -/
def Leads : Signalling → Signalling → Prop := Relation.ReflTransGen Step

/-- What comes of a new coordinator. -/
def Reached : Signalling → Prop := Leads {}

/-- A trigger has set the flag and not given the signal yet. -/
def Sending (l : Signalling) : Prop := .send ∈ l.calls

/-- A trigger that gave the signal is over. -/
def Signalled (l : Signalling) : Prop := .trigger true ∈ l.ended

variable {l m : Signalling} {before after : List ShutdownCall} {call : ShutdownCall}
  {signal : ShutdownSignal}

/-- The flag is set by the one trigger that gives the signal. Receivers opened before that hear it, and
the others are looked at after it. -/
structure Sound (l : Signalling) : Prop where
  once : l.calls.count .send + l.ended.count (.trigger true) = l.shutdown.triggered.toNat
  sent : l.shutdown.broadcasts = l.ended.count (.trigger true)
  opened : ∀ r, .look r ∈ l.calls → l.shutdown.triggered = false → r.heardBefore = 0
  noticed : ∀ signal, .signal signal ∈ l.ended → signal.triggered = true → l.shutdown.triggered = true
  unheard : ∀ signal, .signal signal ∈ l.ended → signal.triggered = false →
    signal.receiver.heardBefore = 0

lemma sound_new : Sound {} where
  once := rfl
  sent := rfl
  opened := nofun
  noticed := nofun
  unheard := nofun

lemma Sound.broadcasts_eq_zero (h : l.Sound) (calm : l.shutdown.triggered = false) :
    l.shutdown.broadcasts = 0 := by
  have none := h.once
  rw [calm, Bool.toNat_false] at none
  rw [h.sent]
  omega

/-- A call that begins is not over and has opened no receiver. -/
lemma Sound.begins (h : l.Sound) (unsent : call ≠ .send) (unopened : ∀ r, call ≠ .look r) :
    Sound { l with calls := l.calls ++ [call] } where
  once := by
    rw [List.count_append, List.count_singleton, if_neg (by simpa using unsent), Nat.add_zero]
    exact h.once
  sent := h.sent
  opened r looks := by
    rw [List.mem_append, List.mem_singleton, or_iff_left (unopened r).symm] at looks
    exact h.opened r looks
  noticed := h.noticed
  unheard := h.unheard

lemma mem_other {other : ShutdownCall} (running : l.calls = before ++ call :: after)
    (mem : other ∈ before ++ after) : other ∈ l.calls := by
  rw [running]
  exact List.mem_append.mpr ((List.mem_append.mp mem).imp_right (List.mem_cons_of_mem call))

/-- A receiver is opened. While the flag is not set, nothing was broadcast that it could have missed. -/
lemma Sound.listen (h : l.Sound) (running : l.calls = before ++ .listen :: after) :
    Sound { l with calls := before ++ [.look l.shutdown.openReceiver] ++ after } where
  once := by
    have once := h.once
    rw [running] at once
    simpa [List.count_cons] using once
  sent := h.sent
  opened r looks calm := by
    rw [List.append_assoc, List.singleton_append, List.mem_append, List.mem_cons,
      ShutdownCall.look.injEq, or_left_comm, ← List.mem_append] at looks
    rcases looks with rfl | looks
    · exact h.broadcasts_eq_zero calm
    · exact h.opened r (mem_other running looks) calm
  noticed := h.noticed
  unheard := h.unheard

/-- A subscription is over. It has the flag as it is now. -/
lemma Sound.look {r : Receiver} (h : l.Sound) (running : l.calls = before ++ .look r :: after) :
    Sound { l with
      calls := before ++ after
      ended := .signal (l.shutdown.readFlag r) :: l.ended } where
  once := by
    have once := h.once
    rw [running] at once
    simpa [List.count_cons] using once
  sent := by simpa [List.count_cons] using h.sent
  opened r looks := h.opened r (mem_other running looks)
  noticed signal past set := by
    rcases List.mem_cons.mp past with same | past
    · obtain rfl := ShutdownAnswer.signal.inj same
      exact set
    · exact h.noticed signal past set
  unheard signal past calm := by
    rcases List.mem_cons.mp past with same | past
    · obtain rfl := ShutdownAnswer.signal.inj same
      exact h.opened r (by simp [running]) calm
    · exact h.unheard signal past calm

/-- The flag is set. Only the trigger that finds it unset goes on to give the signal. -/
lemma Sound.mark (h : l.Sound) (running : l.calls = before ++ .mark :: after) :
    Sound
      { shutdown := l.shutdown.setFlag.1
        calls := before ++ (if l.shutdown.triggered then [] else [.send]) ++ after
        ended := (if l.shutdown.triggered then [.trigger false] else []) ++ l.ended } where
  once := by
    have once := h.once
    rw [running] at once
    cases set : l.shutdown.triggered <;> simp [set, Shutdown.setFlag] at once ⊢ <;> omega
  sent := by
    refine h.sent.trans ?_
    cases l.shutdown.triggered <;> simp
  -- From here on the flag is set, so what is said of the time before holds of nobody.
  opened _ _ := nofun
  noticed _ _ _ := rfl
  unheard signal past := by
    refine h.unheard signal ?_
    cases set : l.shutdown.triggered <;> simpa [set] using past

/-- The signal is given. -/
lemma Sound.send (h : l.Sound) (running : l.calls = before ++ .send :: after) :
    Sound
      { shutdown := l.shutdown.broadcast
        calls := before ++ after
        ended := .trigger true :: l.ended } where
  once := by
    have once := h.once
    rw [running, List.count_append, List.count_cons_self] at once
    change (before ++ after).count .send + (.trigger true :: l.ended).count (.trigger true) =
      l.shutdown.triggered.toNat
    rw [List.count_append, List.count_cons_self]
    omega
  sent := by
    rw [List.count_cons_self, ← h.sent]
    rfl
  opened r looks := h.opened r (mem_other running looks)
  noticed signal past := h.noticed signal (by simpa using past)
  unheard signal past := h.unheard signal (by simpa using past)

lemma Sound.step (h : l.Sound) (step : l.Step m) : m.Sound := by
  cases step with
  | subscribe => exact h.begins nofun nofun
  | trigger => exact h.begins nofun nofun
  | @go before after call running =>
    cases call with
    | listen => exact h.listen running
    | look r => simpa [ShutdownCall.advance] using h.look running
    | mark =>
      have marked := h.mark running
      cases set : l.shutdown.triggered <;>
        simpa [ShutdownCall.advance, Shutdown.setFlag, set] using marked
    | send => simpa [ShutdownCall.advance] using h.send running
  -- That the coordinator is gone concerns no count, no receiver and no answer.
  | drop idle => exact ⟨h.once, h.sent, h.opened, h.noticed, h.unheard⟩

theorem sound_of_reached (h : Reached l) : l.Sound := by
  induction h with
  | refl => exact sound_new
  | tail _ step ih => exact ih.step step

/-- What is over stays so. -/
lemma Leads.ended_suffix (h : l.Leads m) : l.ended <:+ m.ended := by
  induction h with
  | refl => exact List.suffix_rfl
  | tail _ step ih =>
    refine ih.trans ?_
    cases step with
    | subscribe | trigger | drop => exact List.suffix_rfl
    | go => exact List.suffix_append _ _

/-- A subscriber goes on when the flag was set at its second step, when the signal has been given, or when
the coordinator is gone. -/
lemma Sound.releases_iff (h : l.Sound) (past : .signal signal ∈ l.ended) :
    l.shutdown.releases signal = true ↔
      signal.triggered = true ∨ l.Signalled ∨ l.shutdown.isGone = true := by
  have given : l.Signalled ↔ 0 < l.shutdown.broadcasts := by
    rw [h.sent, List.count_pos_iff, Signalled]
  rw [Shutdown.releases, Bool.or_eq_true, Bool.or_eq_true, decide_eq_true_eq, or_assoc, given]
  cases set : signal.triggered with
  | true => simp
  | false => simp [h.unheard signal past set]

lemma Sound.started (h : l.Sound) (set : l.shutdown.triggered = true) : l.Sending ∨ l.Signalled := by
  have once := h.once
  rw [set, Bool.toNat_true] at once
  rw [Sending, Signalled, ← List.count_pos_iff, ← List.count_pos_iff]
  omega

/-- However the steps of the calls fall: when the trigger that gives the signal is over, everyone goes on
who has subscribed by then or ever after. As long as the coordinator is there, nobody goes on before a
trigger has set the flag. The signal is given once at most. -/
theorem signal_reaches (reached : Reached l) :
    (l.Signalled → ∀ m, l.Leads m → ∀ signal, .signal signal ∈ m.ended →
      m.shutdown.releases signal = true) ∧
    (l.shutdown.isGone = false → ∀ signal, .signal signal ∈ l.ended →
      l.shutdown.releases signal = true → l.Sending ∨ l.Signalled) ∧
    l.shutdown.broadcasts = l.ended.count (.trigger true) ∧ l.shutdown.broadcasts ≤ 1 := by
  have sound := sound_of_reached reached
  refine ⟨fun signalled m later signal past => ?_, fun here signal past released => ?_, sound.sent, ?_⟩
  · have still : m.Signalled := later.ended_suffix.subset signalled
    exact ((sound_of_reached (reached.trans later)).releases_iff past).mpr (.inr (.inl still))
  · rcases (sound.releases_iff past).mp released with set | signalled | gone
    · exact sound.started (sound.noticed signal past set)
    · exact .inr signalled
    · exact absurd (here.symm.trans gone) nofun
  · have once := sound.once
    have flag := Bool.toNat_le l.shutdown.triggered
    rw [sound.sent]
    omega

/-- Someone subscribes, another one opens a receiver, and two triggers set the flag. The second one is
over before the signal is given. -/
lemma two_triggers : Reached
    { shutdown := { triggered := true }
      calls := [.look ⟨0⟩, .send]
      ended := [.trigger false, .signal ⟨⟨0⟩, false⟩] } := by
  have subscribed : Reached { ended := [.signal ⟨⟨0⟩, false⟩] } :=
    ((Relation.ReflTransGen.single (Step.subscribe rfl)).tail
      (@Step.go _ [] [] .listen rfl)).tail (@Step.go _ [] [] (.look ⟨0⟩) rfl)
  have begun : Reached
      { calls := [.look ⟨0⟩, .mark, .mark], ended := [.signal ⟨⟨0⟩, false⟩] } :=
    (((subscribed.tail (Step.subscribe rfl)).tail (@Step.go _ [] [] .listen rfl)).tail
      (Step.trigger rfl)).tail (Step.trigger rfl)
  exact (begun.tail (@Step.go _ [.look ⟨0⟩] [.mark] .mark rfl)).tail
    (@Step.go _ [.look ⟨0⟩, .send] [] .mark rfl)

/-- The early subscriber waits for the signal, though one trigger is over. With the signal the early one
goes on, the one who looked between the two steps of the trigger, and one who comes later. -/
theorem signal_reaches_between : ∃ k l m, Reached k ∧ k.Leads l ∧ l.Leads m ∧
    (.trigger false ∈ k.ended ∧ k.shutdown.releases ⟨⟨0⟩, false⟩ = false ∧ k.Sending) ∧
    l.Signalled ∧ l.shutdown.isGone = false ∧
    ∀ signal, signal ∈ [⟨⟨0⟩, false⟩, ⟨⟨0⟩, true⟩, ⟨⟨1⟩, true⟩] →
      .signal signal ∈ m.ended ∧ m.shutdown.releases signal = true := by
  let k : Signalling :=
    { shutdown := { triggered := true }
      calls := [.look ⟨0⟩, .send]
      ended := [.trigger false, .signal ⟨⟨0⟩, false⟩] }
  let l : Signalling :=
    { shutdown := { triggered := true, broadcasts := 1 }
      ended := [.trigger true, .signal ⟨⟨0⟩, true⟩, .trigger false, .signal ⟨⟨0⟩, false⟩] }
  let m : Signalling := { l with ended := .signal ⟨⟨1⟩, true⟩ :: l.ended }
  have given : k.Leads l :=
    (Relation.ReflTransGen.single (@Step.go k [] [.send] (.look ⟨0⟩) rfl)).tail
      (@Step.go _ [] [] .send rfl)
  have later : l.Leads m :=
    ((Relation.ReflTransGen.single (@Step.subscribe l rfl)).tail
      (@Step.go _ [] [] .listen rfl)).tail (@Step.go _ [] [] (.look ⟨1⟩) rfl)
  have signalled : l.Signalled := List.mem_cons_self
  have reaches := (signal_reaches (two_triggers.trans given)).1 signalled m later
  have early : k.shutdown.releases ⟨⟨0⟩, false⟩ = false ∧ k.Sending :=
    ⟨rfl, List.mem_cons_of_mem _ List.mem_cons_self⟩
  refine ⟨k, l, m, two_triggers, given, later, ⟨List.mem_cons_self, early⟩, signalled, rfl,
    fun signal mem => ?_⟩
  have past : ∀ signal ∈ [⟨⟨0⟩, false⟩, ⟨⟨0⟩, true⟩, ⟨⟨1⟩, true⟩],
      ShutdownAnswer.signal signal ∈ m.ended := by decide
  exact ⟨past signal mem, reaches signal (past signal mem)⟩

end Signalling
end Gateway
