import Gateway.Text.Form
import Gateway.Proofs.Text.Utf8

/-! Reading a written query back. The marks that separate pairs, and names from values, do not occur in
a text that is encoded, so a list of pairs comes apart where it was put together. -/
namespace Gateway.Form
variable {b : UInt8} {s : String} {rest : Bytes}

/-- The bytes of characters that take one byte each. -/
def bytesOf (cs : List Char) : Bytes := cs.map fun c => UInt8.ofNat c.toNat

lemma bytesOf_append (cs ds : List Char) : bytesOf (cs ++ ds) = bytesOf cs ++ bytesOf ds := List.map_append

lemma toNat_char (b : UInt8) : (Char.ofNat b.toNat).toNat = b.toNat := by
  have byte := b.toNat_lt
  rw [Char.ofNat, dif_pos (.inl (by omega))]
  rfl

/-- Bytes that are written as they are: printable, and none of them a mark. -/
lemma of_isPlain (h : isPlain b = true) : isPrintableChar (Char.ofNat b.toNat) = true ∧
    b ≠ 0x25 ∧ b ≠ 0x26 ∧ b ≠ 0x2B ∧ b ≠ 0x3D := by
  simp only [isPlain, isPrintableChar, toNat_char, ne_eq, Bool.or_eq_true, Bool.and_eq_true, decide_eq_true_eq,
    UInt8.le_iff_toNat_le, ← UInt8.toNat_inj, UInt8.reduceToNat] at h ⊢
  omega

/-- What a byte is written in: printable characters, none of them a mark. -/
lemma of_mem_encodeByte {c : Char} (h : c ∈ encodeByte b) : isPrintableChar c = true ∧ c ≠ '&' ∧ c ≠ '=' := by
  have digit : ∀ n < 16, isPrintableChar (Hex.upperDigit n) = true ∧ Hex.upperDigit n ≠ '&' ∧
      Hex.upperDigit n ≠ '=' := by decide
  unfold encodeByte at h
  split at h
  · next plain =>
    obtain ⟨printable, -, noAmp, -, noEq⟩ := of_isPlain plain
    obtain rfl := List.mem_singleton.mp h
    have other {d : Char} (hd : b ≠ UInt8.ofNat d.toNat) : Char.ofNat b.toNat ≠ d := by
      rintro rfl
      rw [toNat_char, UInt8.ofNat_toNat] at hd
      exact hd rfl
    exact ⟨printable, other noAmp, other noEq⟩
  split at h
  · obtain rfl := List.mem_singleton.mp h
    decide
  · have byte := b.toNat_lt
    rcases List.mem_cons.mp h with rfl | h
    · decide
    rcases List.mem_cons.mp h with rfl | h
    · exact digit _ (by omega)
    · obtain rfl := List.mem_singleton.mp h
      exact digit _ (by omega)

lemma of_mem_encodeText {c : Char} (h : c ∈ encodeText s) : isPrintableChar c = true ∧ c ≠ '&' ∧ c ≠ '=' := by
  obtain ⟨b, -, hb⟩ := List.mem_flatMap.mp h
  exact of_mem_encodeByte hb

lemma of_mem_encodePair {p : String × String} {c : Char} (h : c ∈ encodePair p) :
    isPrintableChar c = true ∧ c ≠ '&' := by
  rcases List.mem_append.mp h with h | h
  · exact ⟨(of_mem_encodeText h).1, (of_mem_encodeText h).2.1⟩
  · rcases List.mem_cons.mp h with rfl | h
    · decide
    · exact ⟨(of_mem_encodeText h).1, (of_mem_encodeText h).2.1⟩

/-- A printable character is told from a mark by its byte. -/
lemma byte_ne {c d : Char} (hc : isPrintableChar c = true) (hd : isPrintableChar d = true) (ne : c ≠ d) :
    UInt8.ofNat c.toNat ≠ UInt8.ofNat d.toNat := by
  rw [isPrintableChar, Bool.and_eq_true, decide_eq_true_eq, decide_eq_true_eq] at hc hd
  intro same
  have numbers := congrArg UInt8.toNat same
  rw [UInt8.toNat_ofNat_of_lt' (Nat.lt_of_le_of_lt hc.2 (by decide)),
    UInt8.toNat_ofNat_of_lt' (Nat.lt_of_le_of_lt hd.2 (by decide))] at numbers
  exact ne (Char.toNat_inj.mp numbers)

lemma percentDecode_cons {a : UInt8} (ne : a ≠ 0x25) : percentDecode (a :: rest) = a :: percentDecode rest := by
  match rest with
  | [] => rfl
  | [_] => rfl
  | _ :: _ :: _ => rw [percentDecode, if_neg ne]

lemma percentDecode_digits {h l : UInt8} {high low : ℕ} (hh : digitOf h = some high) (hl : digitOf l = some low) :
    percentDecode (0x25 :: h :: l :: rest) = UInt8.ofNat (high * 16 + low) :: percentDecode rest := by
  rw [percentDecode, if_pos rfl, hh, hl]

/-- The byte of an upper-case digit. -/
def digitByte (n : ℕ) : UInt8 := .ofNat (Hex.upperDigit n).toNat

lemma digitOf_digitByte : ∀ n < 16, digitOf (digitByte n) = some n ∧ digitByte n ≠ 0x2B := by decide +kernel

/-- A byte that was written is read back, whatever follows it. -/
lemma percentDecode_encodeByte (b : UInt8) (rest : Bytes) :
    percentDecode (plusToBlank (bytesOf (encodeByte b)) ++ rest) = b :: percentDecode rest := by
  unfold encodeByte
  split
  · next plain =>
    obtain ⟨-, ne, -, noPlus, -⟩ := of_isPlain plain
    have kept : plusToBlank (bytesOf [Char.ofNat b.toNat]) = [b] := by
      simp [plusToBlank, bytesOf, toNat_char, noPlus]
    rw [kept]
    exact percentDecode_cons ne
  split
  · next blank =>
    rw [blank]
    exact percentDecode_cons (by decide)
  · obtain ⟨high, noPlus⟩ := digitOf_digitByte (b.toNat / 16) (by have := b.toNat_lt; omega)
    obtain ⟨low, noPlus'⟩ := digitOf_digitByte (b.toNat % 16) (by omega)
    have digits : plusToBlank (bytesOf ['%', Hex.upperDigit (b.toNat / 16), Hex.upperDigit (b.toNat % 16)]) =
        [0x25, digitByte (b.toNat / 16), digitByte (b.toNat % 16)] := by
      change [0x25, if digitByte (b.toNat / 16) = 0x2B then _ else digitByte (b.toNat / 16),
        if digitByte (b.toNat % 16) = 0x2B then _ else digitByte (b.toNat % 16)] = _
      rw [if_neg noPlus, if_neg noPlus']
    have whole : b.toNat / 16 * 16 + b.toNat % 16 = b.toNat := by omega
    rw [digits, List.cons_append, List.cons_append, List.cons_append, List.nil_append,
      percentDecode_digits high low, whole, UInt8.ofNat_toNat]

/-- A text that was written is read back. -/
theorem decodeText_encodeText (s : String) : decodeText (bytesOf (encodeText s)) = s := by
  have bytes (bs : Bytes) : percentDecode (plusToBlank (bytesOf (bs.flatMap encodeByte))) = bs := by
    induction bs with
    | nil => rfl
    | cons b bs ih =>
      rw [List.flatMap_cons, bytesOf_append, plusToBlank, List.map_append]
      exact (percentDecode_encodeByte b _).trans (congrArg _ ih)
  rw [decodeText, encodeText, bytes, Bytes.lossy_ofText]

theorem decodePair_encodePair (p : String × String) : decodePair (bytesOf (encodePair p)) = p := by
  have apart : ∀ x ∈ bytesOf (encodeText p.1), decide (x ≠ 0x3D) = true := by
    refine List.forall_mem_map.mpr fun c hc => decide_eq_true ?_
    exact byte_ne (d := '=') (of_mem_encodeText hc).1 (by decide) (of_mem_encodeText hc).2.2
  have parts : bytesOf (encodePair p) = bytesOf (encodeText p.1) ++ 0x3D :: bytesOf (encodeText p.2) :=
    bytesOf_append _ _
  have name : (bytesOf (encodePair p)).takeWhile (· ≠ 0x3D) = bytesOf (encodeText p.1) := by
    rw [parts, List.takeWhile_append_of_pos apart]
    simp
  have value : ((bytesOf (encodePair p)).dropWhile (· ≠ 0x3D)).drop 1 = bytesOf (encodeText p.2) := by
    rw [parts, List.dropWhile_append_of_pos apart]
    simp
  rw [decodePair, name, value, decodeText_encodeText, decodeText_encodeText]

lemma bytesOf_intercalate (sep : List Char) (lists : List (List Char)) :
    bytesOf (sep.intercalate lists) = (bytesOf sep).intercalate (lists.map bytesOf) := by
  induction lists with
  | nil => rfl
  | cons l rest ih =>
    cases rest with
    | nil => simp
    | cons m rest =>
      rw [List.map_cons] at ih
      simp only [List.map_cons, List.intercalate_cons_cons, bytesOf_append, ih]

lemma ofText_encode (pairs : List (String × String)) : Bytes.ofText (encode pairs) =
    [0x26].intercalate (pairs.map fun p => bytesOf (encodePair p)) := by
  have printable : IsPrintable (encode pairs) := by
    rw [IsPrintable, encode, String.toList_ofList]
    refine forall_mem_intercalate (List.forall_mem_singleton.mpr (by decide)) ?_
    exact List.forall_mem_map.mpr fun p _ c hc => (of_mem_encodePair hc).1
  rw [printable.ofText_eq, encode, String.toList_ofList]
  exact (bytesOf_intercalate _ _).trans (by rw [List.map_map]; rfl)

/-- A query that was written is read back. -/
theorem decode_encode (pairs : List (String × String)) : decode (Bytes.ofText (encode pairs)) = pairs := by
  cases pairs with
  | nil => rfl
  | cons first more =>
    have apart : ∀ piece ∈ (first :: more).map fun p => bytesOf (encodePair p), 0x26 ∉ piece := by
      refine List.forall_mem_map.mpr fun p _ mark => ?_
      obtain ⟨c, hc, same⟩ := List.mem_map.mp mark
      exact byte_ne (d := '&') (of_mem_encodePair hc).1 (by decide) (of_mem_encodePair hc).2 same
    have all : ∀ piece ∈ (first :: more).map fun p => bytesOf (encodePair p), decide (piece ≠ []) = true := by
      refine List.forall_mem_map.mpr fun p _ => decide_eq_true fun empty => ?_
      have none : encodePair p = [] := List.map_eq_nil_iff.mp empty
      simp [encodePair] at none
    rw [decode, ofText_encode, List.splitOn_intercalate 0x26 apart (List.cons_ne_nil _ _),
      List.filter_eq_self.mpr all, List.map_map]
    simp [Function.comp_def, decodePair_encodePair]

end Gateway.Form
