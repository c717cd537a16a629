import Mathlib.Tactic.Common
import Gateway.Text.Base64

/-! Padded standard Base64 is read exactly as it is written: bytes come back from their own text, and from no
other. -/
namespace Gateway.Base64
variable {c : Char} {cs : List Char} {n x y z w : ℕ} {b : Bytes}

lemma value?_getD : ∀ n < 64, value? (standard.getD n 'A') = some n := by decide +kernel

lemma ne_pad (h : n < 64) : standard.getD n 'A' ≠ '=' := by
  intro same
  have value := value?_getD n h
  rw [same] at value
  cases value

/-- The text of bytes, with the padding of its last group. -/
def paddedChars : Bytes → List Char
  | [] => []
  | [a] => (encodeGroup standard a.toNat 0 0).take 2 ++ ['=', '=']
  | [a, b] => (encodeGroup standard a.toNat b.toNat 0).take 3 ++ ['=']
  | a :: b :: c :: r => encodeGroup standard a.toNat b.toNat c.toNat ++ paddedChars r

lemma toList_encode : ∀ b : Bytes, (encode b).toList = paddedChars b
  | [] => rfl
  | [a] => by simp [encode, encodeChars, paddedChars, encodeGroup]
  | [_, _] => by simp [encode, encodeChars, paddedChars, encodeGroup]
  | a :: b :: c :: r => by
    have rest := toList_encode r
    simp only [encode, String.toList_ofList, encodeChars, List.length_append, paddedChars,
      List.append_assoc] at rest ⊢
    rw [← rest]
    have four : (encodeGroup standard a.toNat b.toNat c.toNat).length = 4 := rfl
    rw [four, Nat.add_mod_left]

/-- Three bytes from the six bits of four characters. -/
lemma decodeChars_group (hx : x < 64) (hy : y < 64) (hz : z < 64) (hw : w < 64) (r : List Char) :
    decodeChars (standard.getD x 'A' :: standard.getD y 'A' :: standard.getD z 'A' :: standard.getD w 'A' :: r) =
      (decodeChars r).map ([UInt8.ofNat (x * 4 + y / 16), UInt8.ofNat (y % 16 * 16 + z / 4),
        UInt8.ofNat (z % 4 * 64 + w)] ++ ·) := by
  rw [decodeChars]
  · simp only [value?_getD x hx, value?_getD y hy, value?_getD z hz, value?_getD w hw, Option.bind_eq_bind,
      Option.bind_some, Option.pure_def]
    cases decodeChars r <;> rfl
  · rintro - last -
    exact ne_pad hw last
  · rintro last -
    exact ne_pad hw last

/-- One byte from two characters; four bits are left over. -/
lemma decodeChars_one (hx : x < 64) (hy : y < 64) :
    decodeChars [standard.getD x 'A', standard.getD y 'A', '=', '='] =
      if y % 16 = 0 then some [UInt8.ofNat (x * 4 + y / 16)] else none := by
  rw [decodeChars, value?_getD x hx, value?_getD y hy]
  rfl

/-- Two bytes from three characters; two bits are left over. -/
lemma decodeChars_two (hx : x < 64) (hy : y < 64) (hz : z < 64) :
    decodeChars [standard.getD x 'A', standard.getD y 'A', standard.getD z 'A', '='] =
      if z % 4 = 0 then some [UInt8.ofNat (x * 4 + y / 16), UInt8.ofNat (y % 16 * 16 + z / 4)] else none := by
  rw [decodeChars]
  · rw [value?_getD x hx, value?_getD y hy, value?_getD z hz]
    rfl
  · exact ne_pad hz

/-- Bytes come back from their text. -/
lemma decodeChars_paddedChars : ∀ b : Bytes, decodeChars (paddedChars b) = some b
  | [] => rfl
  | [a] => by
    have ha := a.toNat_lt
    have one : a.toNat / 4 * 4 + (a.toNat % 4 * 16 + 0 / 16) / 16 = a.toNat := by omega
    have rest : (a.toNat % 4 * 16 + 0 / 16) % 16 = 0 := by omega
    refine (decodeChars_one (by omega) (by omega)).trans ?_
    rw [if_pos rest, one, UInt8.ofNat_toNat]
  | [a, b] => by
    have ha := a.toNat_lt
    have hb := b.toNat_lt
    have one : a.toNat / 4 * 4 + (a.toNat % 4 * 16 + b.toNat / 16) / 16 = a.toNat := by omega
    have two : (a.toNat % 4 * 16 + b.toNat / 16) % 16 * 16 + (b.toNat % 16 * 4 + 0 / 64) / 4 = b.toNat := by omega
    have rest : (b.toNat % 16 * 4 + 0 / 64) % 4 = 0 := by omega
    refine (decodeChars_two (by omega) (by omega) (by omega)).trans ?_
    rw [if_pos rest, one, two, UInt8.ofNat_toNat, UInt8.ofNat_toNat]
  | a :: b :: c :: r => by
    have ha := a.toNat_lt
    have hb := b.toNat_lt
    have hc := c.toNat_lt
    have one : a.toNat / 4 * 4 + (a.toNat % 4 * 16 + b.toNat / 16) / 16 = a.toNat := by omega
    have two : (a.toNat % 4 * 16 + b.toNat / 16) % 16 * 16 + (b.toNat % 16 * 4 + c.toNat / 64) / 4 = b.toNat := by
      omega
    have three : (b.toNat % 16 * 4 + c.toNat / 64) % 4 * 64 + c.toNat % 64 = c.toNat := by omega
    refine (decodeChars_group (by omega) (by omega) (by omega) (by omega) (paddedChars r)).trans ?_
    rw [decodeChars_paddedChars r, one, two, three, UInt8.ofNat_toNat, UInt8.ofNat_toNat, UInt8.ofNat_toNat]
    rfl

lemma toNat_lt_of_value? (h : value? c = some n) : c.toNat < 128 := by
  have bounded {d e : Char} (hd : d.toNat < 128) (h : e ≤ c ∧ c ≤ d) : c.toNat < 128 :=
    Nat.lt_of_le_of_lt (Char.le_def.mp h.2) hd
  unfold value? at h
  split at h
  · next upper => exact bounded (by decide) upper
  split at h
  · next lower => exact bounded (by decide) lower
  split at h
  · next digit => exact bounded (by decide) digit
  split at h
  · next plus => subst plus; decide
  split at h
  · next slash => subst slash; decide
  · cases h

/-- A character of the alphabet stands for its place in it. -/
lemma of_value? (h : value? c = some n) : n < 64 ∧ c = standard.getD n 'A' := by
  have each : ∀ k < 128, ∀ n ∈ value? (Char.ofNat k), n < 64 ∧ Char.ofNat k = standard.getD n 'A' := by
    decide +kernel
  have found := each c.toNat (toNat_lt_of_value? h)
  rw [Char.ofNat_toNat] at found
  exact found n h

/-- What is read is the text of what comes out. -/
lemma eq_paddedChars (h : decodeChars cs = some b) : cs = paddedChars b := by
  have byte {n : ℕ} (small : n < 256) : (UInt8.ofNat n).toNat = n := UInt8.toNat_ofNat_of_lt' small
  fun_induction decodeChars cs generalizing b with
  | case1 => cases h; rfl
  | case2 a b =>
    simp only [Option.bind_eq_bind, Option.bind_eq_some_iff] at h
    obtain ⟨x, hx, y, hy, h⟩ := h
    obtain ⟨hx, rfl⟩ := of_value? hx
    obtain ⟨hy, rfl⟩ := of_value? hy
    obtain ⟨rest, h⟩ := Option.ite_none_right_eq_some.mp h
    obtain rfl := Option.some.inj h
    have first : (x * 4 + y / 16) / 4 = x := by omega
    have second : (x * 4 + y / 16) % 4 * 16 + 0 / 16 = y := by omega
    rw [paddedChars, byte (by omega), encodeGroup, first, second]
    rfl
  | case3 a b c noPad =>
    simp only [Option.bind_eq_bind, Option.bind_eq_some_iff] at h
    obtain ⟨x, hx, y, hy, z, hz, h⟩ := h
    obtain ⟨hx, rfl⟩ := of_value? hx
    obtain ⟨hy, rfl⟩ := of_value? hy
    obtain ⟨hz, rfl⟩ := of_value? hz
    obtain ⟨rest, h⟩ := Option.ite_none_right_eq_some.mp h
    obtain rfl := Option.some.inj h
    have first : (x * 4 + y / 16) / 4 = x := by omega
    have second : (x * 4 + y / 16) % 4 * 16 + (y % 16 * 16 + z / 4) / 16 = y := by omega
    have third : (y % 16 * 16 + z / 4) % 16 * 4 + 0 / 64 = z := by omega
    rw [paddedChars, byte (by omega), byte (by omega), encodeGroup, first, second, third]
    rfl
  | case4 a b c d r noPads noPad ih =>
    simp only [Option.bind_eq_bind, Option.bind_eq_some_iff] at h
    obtain ⟨x, hx, y, hy, z, hz, w, hw, rest, hr, h⟩ := h
    obtain ⟨hx, rfl⟩ := of_value? hx
    obtain ⟨hy, rfl⟩ := of_value? hy
    obtain ⟨hz, rfl⟩ := of_value? hz
    obtain ⟨hw, rfl⟩ := of_value? hw
    obtain rfl := ih hr
    obtain rfl := Option.some.inj h
    have first : (x * 4 + y / 16) / 4 = x := by omega
    have second : (x * 4 + y / 16) % 4 * 16 + (y % 16 * 16 + z / 4) / 16 = y := by omega
    have third : (y % 16 * 16 + z / 4) % 16 * 4 + (z % 4 * 64 + w) / 64 = z := by omega
    have fourth : (z % 4 * 64 + w) % 64 = w := by omega
    rw [paddedChars, byte (by omega), byte (by omega), byte (by omega), encodeGroup, first, second, third, fourth]
    rfl
  | case5 => cases h

/-- Base64 is read exactly as it is written. -/
theorem decode_eq_some_iff {s : String} : decode s = some b ↔ s = encode b := by
  constructor
  · intro h
    have chars := eq_paddedChars h
    rw [← toList_encode] at chars
    exact String.toList_injective chars
  · rintro rfl
    rw [decode, toList_encode, decodeChars_paddedChars]

/-- What every character of the alphabet and the padding have, all of a text has. -/
lemma forall_mem_encode {p : Char → Prop} (pad : p '=') (alphabet : ∀ n < 64, p (standard.getD n 'A'))
    (b : Bytes) : ∀ c ∈ (encode b).toList, p c := by
  have group (a b c : UInt8) : ∀ d ∈ encodeGroup standard a.toNat b.toNat c.toNat, p d := by
    have ha := a.toNat_lt
    have hb := b.toNat_lt
    have hc := c.toNat_lt
    rw [encodeGroup, List.forall_mem_map]
    simp only [List.forall_mem_cons]
    refine ⟨alphabet _ ?_, alphabet _ ?_, alphabet _ ?_, alphabet _ ?_, nofun⟩ <;> omega
  rw [toList_encode]
  fun_induction paddedChars b with
  | case1 => simp
  | case2 a =>
    rw [List.forall_mem_append]
    exact ⟨fun c hc => group a 0 0 c (List.mem_of_mem_take hc), by simpa using pad⟩
  | case3 a b =>
    rw [List.forall_mem_append]
    exact ⟨fun c hc => group a b 0 c (List.mem_of_mem_take hc), by simpa using pad⟩
  | case4 a b c r ih =>
    rw [List.forall_mem_append]
    exact ⟨group a b c, ih⟩

end Gateway.Base64
