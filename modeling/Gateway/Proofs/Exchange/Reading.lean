import Gateway.Exchange.Basic
import Gateway.Proofs.Exchange.Content

/-! Reading the content of a request. It comes in whole, or it is refused: because it is too large, or is
said to be, or because it breaks off. -/
namespace Gateway

namespace ContentBuffers
variable {c : ContentBuffers} {chunk : Bytes} {f : Failure}

lemma push_error (h : c.push chunk = .error f) : f = .contentTooLarge c.limits.max := by
  unfold push at h
  split at h
  · exact (Except.error.inj h).symm
  · split at h
    · cases h
    · exact (Except.error.inj h).symm

/-- Chunks are refused only because they are too large. -/
lemma pushAll_error {chunks : List Bytes} (h : c.pushAll chunks = .error f) :
    f = .contentTooLarge c.limits.max := by
  induction chunks generalizing c with
  | nil => cases h
  | cons chunk chunks ih =>
    change c.push chunk >>= (pushAll · chunks) = .error f at h
    cases first : c.push chunk with
    | error g =>
      rw [first] at h
      obtain rfl := Except.error.inj h
      exact push_error first
    | ok d =>
      rw [first] at h
      rw [ih h, (size_of_push first).1]

end ContentBuffers

namespace Body
variable {b : Body} {limits : ContentLimits} {declared : Option Nat}

/-- The size of a body is over the limit, its own or the one that was declared. -/
def TooLarge (b : Body) (limits : ContentLimits) (declared : Option Nat) : Prop :=
  limits.max < b.bytes.length ∨ ∃ n ∈ declared, limits.max < n

instance : Decidable (b.TooLarge limits declared) := inferInstanceAs (Decidable (_ ∨ _))

/-- Why a body is not read: it is too large, or it breaks off. -/
def refusal? (b : Body) (limits : ContentLimits) (declared : Option Nat) : Option Failure :=
  if b.TooLarge limits declared then some (.contentTooLarge limits.max)
  else b.failure.map .malformedContent

lemma refusal?_of_tooLarge (h : b.TooLarge limits declared) :
    b.refusal? limits declared = some (.contentTooLarge limits.max) := if_pos h

lemma refusal?_of_failure (h : ¬b.TooLarge limits declared) {reason : String}
    (broken : b.failure = some reason) : b.refusal? limits declared = some (.malformedContent reason) := by
  rw [refusal?, if_neg h, broken]
  rfl

/-- A body is read whole unless it is refused. -/
theorem buffer_eq (b : Body) (limits : ContentLimits) (declared : Option Nat) :
    match b.refusal? limits declared with
    | none => (∃ c, b.buffer limits declared = .ok c ∧ c.toBytes = b.bytes) ∧
        b.bytes.length ≤ limits.max ∧ b.failure = none
    | some f => b.buffer limits declared = .error f := by
  have start : (ContentBuffers.mk limits [] 0).Sound := ⟨nofun, rfl⟩
  have over_iff : declared.any (· > limits.max) = true ↔ ∃ n ∈ declared, limits.max < n := by
    simp only [Option.any_eq_true, decide_eq_true_eq]
    rfl
  unfold refusal? buffer
  by_cases said : ∃ n ∈ declared, limits.max < n
  · have large : b.TooLarge limits declared := .inr said
    rw [if_pos large, if_pos (over_iff.mpr said)]
  rw [if_neg (over_iff.not.mpr said)]
  by_cases size : limits.max < b.bytes.length
  · have large : b.TooLarge limits declared := .inl size
    rw [if_pos large]
    cases placed : ContentBuffers.pushAll ⟨limits, [], 0⟩ b.chunks with
    | error f =>
      rw [ContentBuffers.pushAll_error placed]
      rfl
    | ok c =>
      have within := ContentBuffers.size_of_pushAll placed (Nat.zero_le _)
      rw [Nat.zero_add] at within
      exact absurd size (Nat.not_lt.mpr within)
  · have small : ¬b.TooLarge limits declared := not_or.mpr ⟨size, said⟩
    have within : b.bytes.length ≤ limits.max := Nat.not_lt.mp size
    have fits : 0 + b.bytes.length ≤ limits.max := by rwa [Nat.zero_add]
    obtain ⟨c, placed, bytes⟩ : ∃ c, ContentBuffers.pushAll ⟨limits, [], 0⟩ b.chunks = .ok c ∧
        c.toBytes = b.bytes := ContentBuffers.pushAll_within start fits
    rw [if_neg small, placed]
    cases b.failure with
    | none => exact ⟨⟨c, rfl, bytes⟩, within, rfl⟩
    | some reason => rfl

end Body

namespace Exchange
variable {x y : Exchange} {body : Body}

/-- The whole of the body is in memory, within the limits. -/
structure HasWhole (x : Exchange) (limits : ContentLimits) (body : Body) : Prop where
  limited : x.limits = limits
  content : x.content? = some body.bytes
  within : body.bytes.length ≤ limits.max
  unbroken : body.failure = none

/-- Content that is pending is read whole, or it is refused and given up. -/
theorem readContent_of_pending (pending : x.content = .pending body) :
    match body.refusal? x.limits x.declaredSize with
    | none => x.readContent.2 = .ok () ∧ x.readContent.1.HasWhole x.limits body
    | some f => x.readContent = ({ x with content := .released }, .error f) := by
  have read := body.buffer_eq x.limits x.declaredSize
  unfold readContent
  simp only [pending]
  cases refused : body.refusal? x.limits x.declaredSize with
  | none =>
    rw [refused] at read
    obtain ⟨⟨c, read, bytes⟩, within, whole⟩ := read
    simp only [read]
    exact ⟨trivial, rfl, congrArg some bytes, within, whole⟩
  | some f =>
    rw [refused] at read
    simp only [read]

end Exchange
end Gateway
