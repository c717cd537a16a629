import Gateway.Proofs.Text.Form

/-! What percent-decoding leaves as it is. It shortens every text that it changes, and a byte that can be no
part of an escape keeps what is before it apart from what is behind it. -/
namespace Gateway

variable {a : UInt8} {b rest : Bytes}

/-- Two digits, as they stand after a percent sign. -/
def startsWithDigits : Bytes → Bool
  | x :: y :: _ => (digitOf x).isSome && (digitOf y).isSome
  | _ => false

/-- Without an escape at its start, the rest is decoded behind the first byte. -/
lemma percentDecode_cons_of (plain : a = 0x25 → startsWithDigits rest = false) :
    percentDecode (a :: rest) = a :: percentDecode rest := by
  match rest with
  | [] => rfl
  | [_] => rfl
  | x :: y :: r =>
    rw [percentDecode]
    split
    · next percent =>
      have nodigits := plain percent
      cases hx : digitOf x with
      | none => rfl
      | some hi =>
        cases hy : digitOf y with
        | none => rfl
        | some lo => simp [startsWithDigits, hx, hy] at nodigits
    · rfl

/-- The first byte begins an escape, or is left. -/
lemma percentDecode_cases (a : UInt8) (rest : Bytes) :
    (∃ x y r hi lo, a = 0x25 ∧ rest = x :: y :: r ∧ digitOf x = some hi ∧ digitOf y = some lo) ∨
      (a = 0x25 → startsWithDigits rest = false) := by
  by_cases escape : a = 0x25 ∧ startsWithDigits rest = true
  · obtain ⟨percent, digits⟩ := escape
    match rest, digits with
    | x :: y :: r, digits =>
      rw [startsWithDigits, Bool.and_eq_true, Option.isSome_iff_exists, Option.isSome_iff_exists] at digits
      obtain ⟨⟨hi, hx⟩, lo, hy⟩ := digits
      exact .inl ⟨x, y, r, hi, lo, percent, rfl, hx, hy⟩
  · exact .inr fun percent => Bool.eq_false_iff.mpr fun digits => escape ⟨percent, digits⟩

/-- What decoding changes gets shorter. -/
theorem percentDecode_eq_or_shorter (b : Bytes) :
    percentDecode b = b ∨ (percentDecode b).length < b.length := by
  match b with
  | [] => exact .inl rfl
  | a :: rest =>
    rcases percentDecode_cases a rest with ⟨x, y, r, hi, lo, rfl, rfl, hx, hy⟩ | plain
    · right
      have shorter := percentDecode_eq_or_shorter r
      rw [Form.percentDecode_digits hx hy]
      rcases shorter with same | shorter
      · simp [same]
      · simp only [List.length_cons]
        omega
    · rw [percentDecode_cons_of plain]
      rcases percentDecode_eq_or_shorter rest with same | shorter
      · exact .inl (congrArg _ same)
      · exact .inr (Nat.succ_lt_succ shorter)
termination_by b.length

lemma length_percentDecode_le (b : Bytes) : (percentDecode b).length ≤ b.length := by
  rcases percentDecode_eq_or_shorter b with same | shorter
  · rw [same]
  · exact Nat.le_of_lt shorter

/-- A slash is no part of an escape, so both sides of it are decoded on their own. -/
theorem percentDecode_append_slash (b rest : Bytes) :
    percentDecode (b ++ 0x2F :: rest) = percentDecode b ++ 0x2F :: percentDecode rest := by
  match b with
  | [] => exact Form.percentDecode_cons (by decide)
  | a :: more =>
    rw [List.cons_append]
    rcases percentDecode_cases a more with ⟨x, y, r, hi, lo, rfl, rfl, hx, hy⟩ | plain
    · rw [List.cons_append, List.cons_append, Form.percentDecode_digits hx hy, Form.percentDecode_digits hx hy,
        percentDecode_append_slash r rest, List.cons_append]
    · have still : a = 0x25 → startsWithDigits (more ++ 0x2F :: rest) = false := by
        have slash : digitOf 0x2F = none := by decide
        intro percent
        match more, plain percent with
        | [], _ => cases rest <;> simp [startsWithDigits, slash]
        | [x], _ => simp [startsWithDigits, slash]
        | x :: y :: r, nodigits => exact nodigits
      rw [percentDecode_cons_of plain, percentDecode_cons_of still, percentDecode_append_slash more rest,
        List.cons_append]
termination_by b.length

end Gateway
