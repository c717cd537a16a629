import Mathlib.Tactic.Common
import Gateway.Address

/-! Texts and their bytes. Numbers and addresses are written in printable ASCII. -/
namespace Gateway

namespace Bytes
variable {s t : String} {b : Bytes}

lemma ofText_append : ofText (s ++ t) = ofText s ++ ofText t := by
  unfold ofText
  rw [String.toByteArray_append, ByteArray.data_append, Array.toList_append]

lemma ofText_eq_flatMap (s : String) : ofText s = s.toList.flatMap String.utf8EncodeChar := by
  have chars : s.toByteArray = s.toList.utf8Encode := by
    rw [← String.toByteArray_ofList, String.ofList_toList]
  rw [ofText, chars, List.utf8Encode]
  simp

lemma ofText_of_text? (h : text? b = some s) : ofText s = b := by
  unfold text? String.fromUTF8? at h
  split at h
  · obtain rfl := Option.some.inj h
    rfl
  · cases h

end Bytes

lemma forall_mem_intercalate {α : Type} {p : α → Prop} {sep : List α} {lists : List (List α)}
    (hs : ∀ a ∈ sep, p a) (hl : ∀ l ∈ lists, ∀ a ∈ l, p a) : ∀ a ∈ sep.intercalate lists, p a := by
  induction lists with
  | nil => simp
  | cons l rest ih =>
    rw [List.forall_mem_cons] at hl
    cases rest with
    | nil =>
      rw [List.intercalate_singleton]
      exact hl.1
    | cons m rest =>
      rw [List.intercalate_cons_cons]
      simp only [List.forall_mem_append]
      exact ⟨⟨hl.1, hs⟩, ih hl.2⟩

def isPrintableChar (c : Char) : Bool := 0x20 ≤ c.toNat && c.toNat ≤ 0x7E

/-- The text is printable ASCII. -/
def IsPrintable (s : String) : Prop := ∀ c ∈ s.toList, isPrintableChar c = true

instance (s : String) : Decidable (IsPrintable s) :=
  decidable_of_iff (s.toList.all isPrintableChar = true) List.all_eq_true

namespace IsPrintable
variable {s : String}

/-- A printable character is one byte. -/
lemma ofText_eq (h : IsPrintable s) : Bytes.ofText s = s.toList.map fun c => UInt8.ofNat c.toNat := by
  rw [Bytes.ofText_eq_flatMap, List.map_eq_flatMap, List.flatMap_def, List.flatMap_def]
  congr 1
  refine List.map_congr_left fun c hc => ?_
  have range := h c hc
  rw [isPrintableChar, Bool.and_eq_true, decide_eq_true_eq, decide_eq_true_eq] at range
  have small : c.val.toNat ≤ 127 := Nat.le_trans range.2 (by decide)
  rw [String.utf8EncodeChar.eq_1, if_pos small]
  rfl

end IsPrintable

/-- The characters of a number in some base are digits of it. -/
lemma forall_mem_toDigits {p : Char → Prop} {base : Nat} (two : 1 < base)
    (digits : ∀ m < base, p m.digitChar) (n : Nat) : ∀ c ∈ Nat.toDigits base n, p c := by
  intro c hc
  induction n using Nat.strongRecOn with
  | ind n ih =>
    rw [Nat.toDigits_eq_if two] at hc
    split at hc
    · next small =>
      rw [List.mem_singleton.mp hc]
      exact digits n small
    · next large =>
      have pos : 0 < n := by omega
      rcases List.mem_append.mp hc with hc | hc
      · exact ih (n / base) (Nat.div_lt_self pos two) hc
      · rw [List.mem_singleton.mp hc]
        exact digits _ (Nat.mod_lt _ (by omega))

namespace IpAddress

section Characters
variable {p : Char → Prop} (digits : ∀ n < 16, p n.digitChar) (dot : p '.') (colon : p ':')
include digits

lemma forall_mem_octetsText (dot : p '.') (octets : List UInt8) :
    ∀ c ∈ (octetsText octets).toList, p c := by
  rw [octetsText, String.toList_intercalate, List.map_map]
  refine forall_mem_intercalate (by simpa using dot) (List.forall_mem_map.mpr fun o _ => ?_)
  rw [Function.comp_apply, Nat.toString_eq_ofList_toDigits, String.toList_ofList]
  exact forall_mem_toDigits (by decide) (fun m hm => digits m (by omega)) _

lemma forall_mem_segmentsText (colon : p ':') (segments : List UInt16) :
    ∀ c ∈ (segmentsText segments).toList, p c := by
  rw [segmentsText, String.toList_intercalate, List.map_map]
  refine forall_mem_intercalate (by simpa using colon) (List.forall_mem_map.mpr fun s _ => ?_)
  rw [Function.comp_apply, segmentText, String.toList_ofList]
  exact forall_mem_toDigits (by decide) digits _

include dot colon

/-- An address is written with digits, dots and colons. -/
theorem forall_mem_text (ip : IpAddress) : ∀ c ∈ ip.text.toList, p c := by
  cases ip with
  | v4 octets => exact forall_mem_octetsText digits dot _
  | v6 segments =>
    change ∀ c ∈ (v6Text segments.toList).toList, p c
    unfold v6Text
    split
    · rw [String.toList_append, List.forall_mem_append]
      have letter : p 'f' := digits 15 (by decide)
      exact ⟨by simp [colon, letter], forall_mem_octetsText digits dot _⟩
    · dsimp only
      split
      · rw [String.toList_append, String.toList_append, List.forall_mem_append, List.forall_mem_append]
        exact ⟨⟨forall_mem_segmentsText digits colon _, by simp [colon]⟩,
          forall_mem_segmentsText digits colon _⟩
      · exact forall_mem_segmentsText digits colon _

end Characters

theorem isPrintable_text (ip : IpAddress) : IsPrintable ip.text :=
  ip.forall_mem_text (by decide) (by decide) (by decide)

end IpAddress
end Gateway
