import Mathlib.Algebra.GroupWithZero.Nat
import Gateway.Proofs.Text.Hex
import Gateway.Session.Uuid

/-! The forms of an identifier. Each of the four is read, in letters of either case, and no other text is. The
text that is written is one of them. -/
namespace Gateway.Uuid
open Hex
variable {u : Uuid} {cs digits : List Char} {b : Bytes}

/-- The digits stand in five groups with hyphens between them. -/
def Hyphenates (digits cs : List Char) : Prop :=
  ∃ groups : List (List Char), groups.map List.length = [8, 4, 4, 4, 12] ∧ groups.flatten = digits ∧
    List.intercalate ['-'] groups = cs

/-- The text is a form of `u`: its digits alone, with hyphens, with hyphens in braces, or with hyphens behind the
name space, whose letters may be of either case as well. -/
inductive HasForm (u : Uuid) : List Char → Prop
  | plain {digits : List Char} : Spells u.toBytes digits → HasForm u digits
  | hyphenated {digits cs : List Char} : Spells u.toBytes digits → Hyphenates digits cs → HasForm u cs
  | braced {digits cs : List Char} : Spells u.toBytes digits → Hyphenates digits cs →
      HasForm u ('\x7b' :: (cs ++ ['\x7d']))
  | named {digits cs start : List Char} : Spells u.toBytes digits → Hyphenates digits cs →
      start.map Char.toLower = nameSpace → HasForm u (start ++ cs)

section Plain

lemma ofBytes?_eq_some_iff : ofBytes? b = some u ↔ b = u.toBytes := by
  constructor
  · intro h
    obtain ⟨_, h⟩ := Option.dite_none_right_eq_some.mp h
    obtain rfl := Option.some.inj h
    rfl
  · rintro rfl
    exact ofBytes?_toBytes u

lemma length_of_spells (h : Spells u.toBytes digits) : digits.length = 32 := by
  rw [h.length_eq, toBytes_length]

lemma ofPlain?_eq_some_iff : ofPlain? cs = some u ↔ Spells u.toBytes cs := by
  rw [ofPlain?, Option.ite_none_right_eq_some, Option.bind_eq_some_iff]
  simp only [decodeChars_eq_some_iff, ofBytes?_eq_some_iff, exists_eq_right, and_iff_right_iff_imp]
  exact length_of_spells

end Plain

section Hyphens
variable {α : Type} {n : ℕ} {ns : List ℕ} {x : α} {xs ys : List α}

lemma hyphenates_iff : Hyphenates digits cs ↔ ∃ a b c d e : List Char,
    (a.length = 8 ∧ b.length = 4 ∧ c.length = 4 ∧ d.length = 4 ∧ e.length = 12) ∧
      a ++ b ++ c ++ d ++ e = digits ∧ a ++ '-' :: (b ++ '-' :: (c ++ '-' :: (d ++ '-' :: e))) = cs := by
  constructor
  · rintro ⟨groups, sizes, rfl, rfl⟩
    simp only [List.map_eq_cons_iff, List.map_eq_nil_iff] at sizes
    obtain ⟨a, _, rfl, ha, b, _, rfl, hb, c, _, rfl, hc, d, _, rfl, hd, e, _, rfl, he, rfl⟩ := sizes
    exact ⟨a, b, c, d, e, ⟨ha, hb, hc, hd, he⟩, by simp, by simp [List.intercalate_cons_cons]⟩
  · rintro ⟨a, b, c, d, e, ⟨ha, hb, hc, hd, he⟩, rfl, rfl⟩
    exact ⟨[a, b, c, d, e], by simp [ha, hb, hc, hd, he], by simp, by simp [List.intercalate_cons_cons]⟩

lemma Hyphenates.length_eq (h : Hyphenates digits cs) : cs.length = 36 := by
  obtain ⟨a, b, c, d, e, ⟨ha, hb, hc, hd, he⟩, -, rfl⟩ := hyphenates_iff.mp h
  simp [ha, hb, hc, hd, he]

/-- A piece takes the character that stands behind it along. -/
lemma pieces_append_cons (h : xs.length = n) :
    pieces ((n + 1) :: ns) (xs ++ x :: ys) = (xs ++ [x]) :: pieces ns ys := by
  have size : (xs ++ [x]).length = n + 1 := by simp [h]
  rw [List.append_cons, pieces, List.take_left' size, List.drop_left' size]

/-- Between hyphens, the digits are read. -/
lemma ofHyphenated?_of_hyphenates (h : Hyphenates digits cs) : ofHyphenated? cs = ofPlain? digits := by
  have size := h.length_eq
  obtain ⟨a, b, c, d, e, ⟨ha, hb, hc, hd, he⟩, rfl, rfl⟩ := hyphenates_iff.mp h
  rw [ofHyphenated?, if_pos ⟨size, by simp [List.getElem?_append, ha, hb, hc, hd]⟩, pieces_append_cons ha,
    pieces_append_cons hb, pieces_append_cons hc, pieces_append_cons hd, pieces]
  simp [List.take_left' ha, List.take_left' hb, List.take_left' hc, List.take_left' hd,
    List.take_of_length_le (Nat.le_of_eq he)]

lemma eq_of_getElem? (h : xs[n]? = some x) : xs.take n ++ x :: xs.drop (n + 1) = xs := by
  obtain ⟨inside, rfl⟩ := List.getElem?_eq_some_iff.mp h
  rw [List.getElem_cons_drop, List.take_append_drop]

lemma exists_hyphenates (size : cs.length = 36) (marks : ∀ i ∈ [8, 13, 18, 23], cs[i]? = some '-') :
    ∃ digits, Hyphenates digits cs := by
  simp only [List.forall_mem_cons] at marks
  obtain ⟨first, second, third, fourth, -⟩ := marks
  have after {n m : ℕ} (h : cs[n + m]? = some '-') :
      (cs.drop n).take m ++ '-' :: cs.drop (n + m + 1) = cs.drop n := by
    rw [← List.getElem?_drop] at h
    have tail := eq_of_getElem? h
    rwa [List.drop_drop] at tail
  refine ⟨_, hyphenates_iff.mpr ⟨cs.take 8, (cs.drop 9).take 4, (cs.drop 14).take 4, (cs.drop 19).take 4,
    cs.drop 24, by simp [size], rfl, ?_⟩⟩
  rw [after (n := 19) fourth, after (n := 14) third, after (n := 9) second, eq_of_getElem? first]

lemma ofHyphenated?_eq_some_iff :
    ofHyphenated? cs = some u ↔ ∃ digits, Spells u.toBytes digits ∧ Hyphenates digits cs := by
  constructor
  · intro h
    obtain ⟨⟨size, marks⟩, -⟩ := Option.ite_none_right_eq_some.mp h
    obtain ⟨digits, hyphens⟩ := exists_hyphenates size (by simpa using marks)
    rw [ofHyphenated?_of_hyphenates hyphens, ofPlain?_eq_some_iff] at h
    exact ⟨digits, h, hyphens⟩
  · rintro ⟨digits, spells, hyphens⟩
    rw [ofHyphenated?_of_hyphenates hyphens, ofPlain?_eq_some_iff]
    exact spells

end Hyphens

section Reading

lemma braces_iff : (cs.head? = some '\x7b' ∧ cs.getLast? = some '\x7d') ∧ 1 < cs.length ↔
    ∃ inner, '\x7b' :: (inner ++ ['\x7d']) = cs := by
  constructor
  · rintro ⟨⟨opened, closed⟩, long⟩
    obtain ⟨rest, rfl⟩ := List.head?_eq_some_iff.mp opened
    have last : rest.getLast? = some '\x7d' := by
      cases rest with
      | nil => simp at long
      | cons => simpa using closed
    obtain ⟨inner, rfl⟩ := List.getLast?_eq_some_iff.mp last
    exact ⟨inner, rfl⟩
  · rintro ⟨inner, rfl⟩
    refine ⟨⟨rfl, ?_⟩, by simp⟩
    rw [← List.cons_append, List.getLast?_concat]

lemma hasForm_of_parseChars (h : parseChars cs = some u) : u.HasForm cs := by
  unfold parseChars at h
  split at h
  · exact .plain (ofPlain?_eq_some_iff.mp h)
  split at h
  · obtain ⟨digits, spells, hyphens⟩ := ofHyphenated?_eq_some_iff.mp h
    exact .hyphenated spells hyphens
  split at h
  · next size =>
    obtain ⟨braces, h⟩ := Option.ite_none_right_eq_some.mp h
    obtain ⟨inner, rfl⟩ := braces_iff.mp ⟨braces, by omega⟩
    rw [List.drop_one, List.tail_cons, List.dropLast_concat] at h
    obtain ⟨digits, spells, hyphens⟩ := ofHyphenated?_eq_some_iff.mp h
    exact .braced spells hyphens
  split at h
  · obtain ⟨lowered, h⟩ := Option.ite_none_right_eq_some.mp h
    obtain ⟨digits, spells, hyphens⟩ := ofHyphenated?_eq_some_iff.mp h
    rw [← List.take_append_drop 9 cs]
    exact .named spells hyphens lowered
  · cases h

lemma parseChars_of_hasForm (h : u.HasForm cs) : parseChars cs = some u := by
  have read {digits inner : List Char} (spells : Spells u.toBytes digits) (hyphens : Hyphenates digits inner) :
      ofHyphenated? inner = some u := ofHyphenated?_eq_some_iff.mpr ⟨digits, spells, hyphens⟩
  unfold parseChars
  -- The four forms differ in length, so the length alone leads to the branch that reads the form.
  cases h with
  | plain spells =>
    rw [if_pos (length_of_spells spells), ofPlain?_eq_some_iff]
    exact spells
  | hyphenated spells hyphens =>
    have size := hyphens.length_eq
    rw [if_neg (by omega), if_pos size]
    exact read spells hyphens
  | @braced digits inner spells hyphens =>
    have size : ('\x7b' :: (inner ++ ['\x7d'])).length = 38 := by simp [hyphens.length_eq]
    rw [if_neg (by omega), if_neg (by omega), if_pos size, if_pos (braces_iff.mpr ⟨inner, rfl⟩).1, List.drop_one,
      List.tail_cons, List.dropLast_concat]
    exact read spells hyphens
  | @named digits inner start spells hyphens lowered =>
    have nine : start.length = 9 := by
      rw [← List.length_map Char.toLower, lowered]
      rfl
    have size : (start ++ inner).length = 45 := by simp [hyphens.length_eq, nine]
    rw [if_neg (by omega), if_neg (by omega), if_neg (by omega), if_pos size, List.take_left' nine,
      List.drop_left' nine, if_pos lowered]
    exact read spells hyphens

/-- An identifier is read from its forms and from no other text. -/
theorem parse_eq_some_iff {s : String} : parse s = some u ↔ u.HasForm s.toList :=
  ⟨hasForm_of_parseChars, parseChars_of_hasForm⟩

/-- Braces and the name space ask for hyphens. -/
example : parse "\x7b550E8400-E29B-41D4-a716-446655440000\x7d" = parse "550e8400e29b41d4a716446655440000" ∧
    parse "\x7b550e8400e29b41d4a716446655440000\x7d" = none ∧
    parse "urn:uuid:550e8400e29b41d4a716446655440000" = none := by decide +kernel

end Reading

section Writing
variable {α : Type} {ns : List ℕ} {xs : List α}

lemma map_length_pieces (h : xs.length = ns.sum) : (pieces ns xs).map List.length = ns := by
  induction ns generalizing xs with
  | nil => rfl
  | cons n ns ih =>
    rw [List.sum_cons] at h
    have rest : (xs.drop n).length = ns.sum := by
      rw [List.length_drop]
      omega
    rw [pieces, List.map_cons, List.length_take, ih rest, Nat.min_eq_left (by omega)]

lemma flatten_pieces (h : xs.length = ns.sum) : (pieces ns xs).flatten = xs := by
  induction ns generalizing xs with
  | nil => exact (List.length_eq_zero_iff.mp h).symm
  | cons n ns ih =>
    rw [List.sum_cons] at h
    have rest : (xs.drop n).length = ns.sum := by
      rw [List.length_drop]
      omega
    rw [pieces, List.flatten_cons, ih rest, List.take_append_drop]

lemma hyphenates_textChars (u : Uuid) : Hyphenates (encodeChars u.toBytes) u.textChars := by
  have whole : u.toBytes.length = groups.sum := u.toBytes_length
  refine ⟨(pieces groups u.toBytes).map encodeChars, ?_, ?_, rfl⟩
  · have twice : List.length ∘ encodeChars = (2 * ·) ∘ List.length := funext length_encodeChars
    rw [List.map_map, twice, ← List.map_map, map_length_pieces whole]
    rfl
  · rw [← encodeChars_flatten, flatten_pieces whole]

lemma hasForm_text (u : Uuid) : u.HasForm u.text.toList := by
  rw [text, String.toList_ofList]
  exact .hyphenated (spells_encodeChars _) (hyphenates_textChars u)

/-- An identifier is read back from its text. -/
theorem parse_text (u : Uuid) : parse u.text = some u := parse_eq_some_iff.mpr (hasForm_text u)

end Writing
end Gateway.Uuid
