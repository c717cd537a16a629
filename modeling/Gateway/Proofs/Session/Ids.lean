import Gateway.Proofs.Session.Forms
import Gateway.Session.Id

/-! Session ids as they are made and as they are read. The options take one bit of the random bytes, which is
neither a version nor a variant bit, and an id is read from the forms of its identifier. -/
namespace Gateway

namespace Uuid
variable {u : Uuid}

/-- Bit `k` of byte `i`, counted from the lowest. -/
def bit (u : Uuid) (i : Fin 16) (k : Fin 8) : Bool := u.bytes[i].toNat.testBit k

lemma bit_setVariantByte (b : UInt8) (i : Fin 16) (k : Fin 8) :
    (u.setVariantByte b).bit i k = if i = 8 then b.toNat.testBit k else u.bit i k := by
  have place : 8 = i.val ↔ i = 8 := by
    rw [Fin.ext_iff, eq_comm]
    rfl
  simp only [bit, setVariantByte, Fin.getElem_fin, Vector.getElem_set, place]
  split <;> rfl

/-- The bytes of a random identifier have its version and its variant already. -/
lemma ofRandom_bytes (h : u.IsRandom) : ofRandom u.bytes = u := by
  obtain ⟨version, variant⟩ := h
  have fourth : ∀ b : UInt8, b.toNat / 16 = 4 → b &&& 0x0F ||| 0x40 = b := Bytes.forall_byte (by decide +kernel)
  have standard : ∀ b : UInt8, (b &&& 0xC0 == 0x80) = true → b &&& 0x3F ||| 0x80 = b :=
    Bytes.forall_byte (by decide +kernel)
  rw [ofRandom, fourth u.bytes[6] version, standard u.bytes[8] variant]
  simp

end Uuid

namespace SessionId
variable {id : SessionId} {s : String}

section Making
variable (random : Vector UInt8 16) (o : SessionOptions)

lemma testBit_withOptions (b : UInt8) (k : Fin 8) :
    (withOptions b o).toNat.testBit k = if k = 0 then o.causallyConsistent else b.toNat.testBit k := by
  have each : ∀ b : UInt8, ∀ (c : Bool) (k : Fin 8), (withOptions b ⟨c⟩).toNat.testBit k =
      if k = 0 then c else b.toNat.testBit k := Bytes.forall_byte (by decide +kernel)
  exact each b o.causallyConsistent k

/-- The options of an id are told by the lowest bit of byte eight. -/
lemma options_eq_bit (id : SessionId) : id.options = ⟨id.uuid.bit 8 0⟩ := by
  have lowest : ∀ b : UInt8, (b &&& consistencyBit != 0) = b.toNat.testBit 0 :=
    Bytes.forall_byte (by decide +kernel)
  rw [options, lowest]
  rfl

/-- The options stand in the lowest bit of byte eight, every other bit is as it was drawn. -/
lemma bit_ofRandom (i : Fin 16) (k : Fin 8) : (ofRandom random o).uuid.bit i k =
    if i = 8 ∧ k = 0 then o.causallyConsistent else (Uuid.ofRandom random).bit i k := by
  change (Uuid.setVariantByte _ (withOptions _ o)).bit i k = _
  rw [Uuid.bit_setVariantByte, testBit_withOptions]
  by_cases h : i = 8
  · subst h
    simp only [if_true, true_and]
    rfl
  · simp [h]

/-- The options of an id come back from it, whatever the random bytes are. -/
theorem options_ofRandom : (ofRandom random o).options = o := by
  rw [options_eq_bit, bit_ofRandom]
  rfl

end Making

section Reading

lemma ofUuid_uuid (id : SessionId) : ofUuid id.uuid = .ok id := dif_pos id.random

/-- An id is read from the forms of its identifier and from no other text. -/
theorem parse_eq_ok_iff : parse s = .ok id ↔ id.uuid.HasForm s.toList := by
  rw [← Uuid.parse_eq_some_iff, parse]
  constructor
  · intro h
    split at h
    · cases h
    · next u read =>
      rw [ofUuid] at h
      split at h
      · cases h
        exact read
      · cases h
  · intro read
    rw [read]
    exact ofUuid_uuid id

/-- A text that is no form of an identifier is malformed. The form of an identifier that is not random is refused
with this identifier. -/
theorem parse_eq_error_iff {e : SessionIdError} : parse s = .error e ↔
    (e = .malformed s ∧ ∀ u : Uuid, ¬ u.HasForm s.toList) ∨
      ∃ u : Uuid, e = .notRandom u ∧ ¬ u.IsRandom ∧ u.HasForm s.toList := by
  simp only [← Uuid.parse_eq_some_iff, parse]
  cases Uuid.parse s with
  | none => simp [eq_comm]
  | some u =>
    by_cases random : u.IsRandom
    · have accepted : ofUuid u = .ok ⟨u, random⟩ := dif_pos random
      simp [accepted, random]
    · have refused : ofUuid u = .error (.notRandom u) := dif_neg random
      simp [refused, random, eq_comm]

lemma parse_text (id : SessionId) : parse id.text = .ok id := parse_eq_ok_iff.mpr (Uuid.hasForm_text id.uuid)

lemma exists_parse_iff : (∃ id, parse s = .ok id) ↔ ∃ u : Uuid, u.IsRandom ∧ u.HasForm s.toList := by
  constructor
  · rintro ⟨id, read⟩
    exact ⟨id.uuid, id.random, parse_eq_ok_iff.mp read⟩
  · rintro ⟨u, random, form⟩
    exact ⟨⟨u, random⟩, parse_eq_ok_iff.mpr form⟩

end Reading

/-- Sixteen bytes are drawn as a random identifier, those of such an identifier as itself. The id made of them is
random too, differs from what was drawn in the lowest bit of byte eight at most, tells its options and is read back
from its text. A text is read when it is a form of a random identifier, as the id of that identifier. This id comes
back from its own text, and its options are those of its bit. -/
theorem codec_exact (random : Vector UInt8 16) (o : SessionOptions) (s : String) :
    let drawn := Uuid.ofRandom random
    let made := ofRandom random o
    (drawn.IsRandom ∧ (Uuid.IsRandom ⟨random⟩ → drawn = ⟨random⟩)) ∧
      (made.uuid.IsRandom ∧ (∀ i k, made.uuid.bit i k ≠ drawn.bit i k → i = 8 ∧ k = 0) ∧
        made.options = o ∧ parse made.text = .ok made) ∧
      ((∃ id, parse s = .ok id) ↔ ∃ u : Uuid, u.IsRandom ∧ u.HasForm s.toList) ∧
      ∀ id, parse s = .ok id →
        id.uuid.HasForm s.toList ∧ parse id.text = .ok id ∧ id.options = ⟨id.uuid.bit 8 0⟩ := by
  intro drawn made
  refine ⟨⟨Uuid.isRandom_ofRandom random, Uuid.ofRandom_bytes⟩, ⟨made.random, ?_, options_ofRandom random o,
    parse_text made⟩, exists_parse_iff, ?_⟩
  · intro i k differs
    by_contra other
    rw [bit_ofRandom, if_neg other] at differs
    exact differs rfl
  · intro id read
    exact ⟨parse_eq_ok_iff.mp read, parse_text id, options_eq_bit id⟩

/-- An id that sets the option, made of bytes that do not, and a text in capital letters and braces. -/
theorem codec_exact_braced :
    let random : Vector UInt8 16 := #v[0x55, 0x0E, 0x84, 0x00, 0xE2, 0x9B, 0x41, 0xD4, 0xA6, 0x16, 0x44, 0x66,
      0x55, 0x44, 0x00, 0xFF]
    Uuid.IsRandom ⟨random⟩ ∧ Uuid.ofRandom random = ⟨random⟩ ∧
      (ofRandom random ⟨true⟩).text = "550e8400-e29b-41d4-a716-4466554400ff" ∧
      (ofRandom random ⟨true⟩).options = ⟨true⟩ ∧
      ∃ id, parse "\x7b550E8400-E29B-41D4-A616-4466554400FF\x7d" = .ok id ∧
        id.text = "550e8400-e29b-41d4-a616-4466554400ff" ∧ parse id.text = .ok id ∧ id.options = ⟨false⟩ := by
  intro random
  have isRandom : Uuid.IsRandom ⟨random⟩ := by decide
  have form : Uuid.HasForm ⟨random⟩ "\x7b550E8400-E29B-41D4-A616-4466554400FF\x7d".toList :=
    Uuid.parse_eq_some_iff.mp (by decide +kernel)
  have read : parse "\x7b550E8400-E29B-41D4-A616-4466554400FF\x7d" = .ok ⟨⟨random⟩, isRandom⟩ :=
    parse_eq_ok_iff.mpr form
  have low : Uuid.bit ⟨random⟩ 8 0 = false := by decide
  have text : Uuid.text ⟨random⟩ = "550e8400-e29b-41d4-a616-4466554400ff" := by decide +kernel
  obtain ⟨⟨-, drawn⟩, ⟨-, -, set, -⟩, -, again⟩ :=
    codec_exact random ⟨true⟩ "\x7b550E8400-E29B-41D4-A616-4466554400FF\x7d"
  obtain ⟨-, same, unset⟩ := again _ read
  rw [low] at unset
  exact ⟨isRandom, drawn isRandom, by decide +kernel, set, _, read, text, same, unset⟩

end SessionId
end Gateway
