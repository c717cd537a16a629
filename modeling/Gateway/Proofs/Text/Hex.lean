import Mathlib.Tactic.Common
import Gateway.Text.Hex

/-! Hexadecimal digits are written in lower case and read in either case. Bytes are read from exactly the texts
that spell them. -/
namespace Gateway.Hex
variable {c : Char} {cs : List Char} {b : Bytes} {n : ℕ}

/-- The character is the digit of `n`, in lower or in upper case. -/
def IsDigit (n : ℕ) (c : Char) : Prop := n < 16 ∧ (c = digit n ∨ c = upperDigit n)

lemma isDigit_digit (h : n < 16) : IsDigit n (digit n) := ⟨h, .inl rfl⟩

/-- Two digits stand for each byte, the high half first. -/
inductive Spells : Bytes → List Char → Prop
  | nil : Spells [] []
  | byte {a : UInt8} {high low : Char} {b : Bytes} {cs : List Char} :
      IsDigit (a.toNat / 16) high → IsDigit (a.toNat % 16) low → Spells b cs →
      Spells (a :: b) (high :: low :: cs)

lemma Spells.length_eq (h : Spells b cs) : cs.length = 2 * b.length := by
  induction h with
  | nil => rfl
  | byte _ _ _ ih =>
    simp only [List.length_cons, ih]
    omega

lemma toNat_lt_of_value? (h : value? c = some n) : c.toNat < 128 := by
  have bounded {d e : Char} (hd : d.toNat < 128) (h : e ≤ c ∧ c ≤ d) : c.toNat < 128 :=
    Nat.lt_of_le_of_lt (Char.le_def.mp h.2) hd
  unfold value? at h
  split at h
  · next decimal => exact bounded (by decide) decimal
  split at h
  · next lower => exact bounded (by decide) lower
  split at h
  · next upper => exact bounded (by decide) upper
  · cases h

/-- A character has a value when it is the digit of that value. -/
theorem value?_eq_some_iff : value? c = some n ↔ IsDigit n c := by
  constructor
  · intro h
    have each : ∀ k < 128, ∀ n ∈ value? (Char.ofNat k),
        n < 16 ∧ (Char.ofNat k = digit n ∨ Char.ofNat k = upperDigit n) := by decide +kernel
    have found := each c.toNat (toNat_lt_of_value? h)
    rw [Char.ofNat_toNat] at found
    exact found n h
  · have each : ∀ n < 16, value? (digit n) = some n ∧ value? (upperDigit n) = some n := by decide
    rintro ⟨small, rfl | rfl⟩
    · exact (each n small).1
    · exact (each n small).2

/-- Bytes are read from the texts that spell them. -/
theorem decodeChars_eq_some_iff : decodeChars cs = some b ↔ Spells b cs := by
  constructor
  · intro h
    fun_induction decodeChars cs generalizing b with
    | case1 =>
      cases h
      exact .nil
    | case2 => cases h
    | case3 high low cs ih =>
      simp only [Option.bind_eq_bind, Option.bind_eq_some_iff, value?_eq_some_iff] at h
      obtain ⟨m, hm, n, hn, rest, hr, h⟩ := h
      obtain rfl := Option.some.inj h
      have small : m < 16 ∧ n < 16 := ⟨hm.1, hn.1⟩
      have whole : (UInt8.ofNat (m * 16 + n)).toNat = m * 16 + n := UInt8.toNat_ofNat_of_lt' (by
        change m * 16 + n < 256
        omega)
      have first : (m * 16 + n) / 16 = m := by omega
      have second : (m * 16 + n) % 16 = n := by omega
      apply Spells.byte _ _ (ih hr)
      · rwa [whole, first]
      · rwa [whole, second]
  · intro h
    induction h with
    | nil => rfl
    | @byte a high low b cs hh hl _ ih =>
      have halves : a.toNat / 16 * 16 + a.toNat % 16 = a.toNat := by omega
      simp only [decodeChars, value?_eq_some_iff.mpr hh, value?_eq_some_iff.mpr hl, ih, Option.bind_eq_bind,
        Option.bind_some, Option.pure_def, halves, UInt8.ofNat_toNat]

lemma spells_encodeChars (b : Bytes) : Spells b (encodeChars b) := by
  induction b with
  | nil => exact .nil
  | cons a b ih =>
    have small := a.toNat_lt
    apply Spells.byte _ _ ih
    · exact isDigit_digit (by omega)
    · exact isDigit_digit (by omega)

lemma length_encodeChars (b : Bytes) : (encodeChars b).length = 2 * b.length := (spells_encodeChars b).length_eq

lemma encodeChars_flatten (parts : List Bytes) : encodeChars parts.flatten = (parts.map encodeChars).flatten := by
  induction parts with
  | nil => rfl
  | cons part parts ih =>
    rw [List.flatten_cons, List.map_cons, List.flatten_cons, ← ih]
    exact List.flatMap_append

end Gateway.Hex
