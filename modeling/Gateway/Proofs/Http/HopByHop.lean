import Gateway.Proofs.Http.Headers
import Gateway.Proofs.Text.Listing

/-! Which headers do not outlive their connection. Those are the fixed ones, and the ones that a
connection header names. -/
namespace Gateway

/-- The characters make a header name, in any letter case. -/
def IsHeaderName (word : List Char) : Prop :=
  word ≠ [] ∧ word.length ≤ 65535 ∧ ∀ c ∈ word, isTokenChar c = true

lemma headerName?_eq_some_iff {word : List Char} {name : String} :
    headerName? (String.ofList word) = some name ↔
      IsHeaderName word ∧ word.map Char.toLower = name.toList := by
  have lowered : String.ofList (word.map Char.toLower) = name ↔
      word.map Char.toLower = name.toList := by
    rw [← String.toList_inj, String.toList_ofList]
  have proper : (word ≠ [] ∧ word.length ≤ 65535 ∧ word.all isTokenChar = true) ↔
      IsHeaderName word := by rw [List.all_eq_true, IsHeaderName]
  rw [headerName?, String.toList_ofList, Option.ite_none_right_eq_some, Option.some_inj, proper,
    lowered]

namespace HopByHop
variable {h : Headers} {name text : String} {word : List Char} {c : Char}

/-- The text has the word between commas or its ends, with only blanks around it. -/
def Lists (text word : List Char) : Prop :=
  ∃ before left right after, text = before ++ (left ++ word ++ right) ++ after ∧
    (before = [] ∨ [','] <:+ before) ∧ (after = [] ∨ [','] <+: after) ∧
    (∀ c ∈ left, isBlank c = true) ∧ ∀ c ∈ right, isBlank c = true

/-- Some textual value of the connection header lists the name. -/
def Listed (h : Headers) (name : String) : Prop :=
  ∃ value ∈ h.values "connection", ∃ text word, Bytes.visibleText? value = some text ∧
    Lists text.toList word ∧ IsHeaderName word ∧ word.map Char.toLower = name.toList

/-- The name belongs to one connection. -/
def IsHopByHop (h : Headers) (name : String) : Prop := name ∈ fixedNames ∨ Listed h name

lemma isBlank_eq_false (token : isTokenChar c = true) : isBlank c = false := by
  by_contra blank
  rw [Bool.not_eq_false, isBlank, Bool.or_eq_true, decide_eq_true_eq, decide_eq_true_eq] at blank
  rcases blank with rfl | rfl <;> revert token <;> decide

/-- A word of header name characters is listed as a piece between commas. -/
lemma lists_iff_exists_piece {text : List Char} (proper : ∀ c ∈ word, isTokenChar c = true) :
    Lists text word ↔ ∃ piece ∈ text.splitOn ',', trimBlanks piece = word := by
  constructor
  · rintro ⟨before, left, right, after, rfl, start, stop, blank, blank'⟩
    refine ⟨left ++ word ++ right, mem_splitOn_iff.mpr ⟨?_, before, after, rfl, start, stop⟩,
      trimBlanks_padded blank blank' fun c hc => isBlank_eq_false (proper c hc)⟩
    rw [List.mem_append, List.mem_append]
    rintro ((comma | comma) | comma)
    · exact absurd (blank _ comma) (by decide)
    · exact absurd (proper _ comma) (by decide)
    · exact absurd (blank' _ comma) (by decide)
  · rintro ⟨piece, between, rfl⟩
    obtain ⟨-, before, after, all, start, stop⟩ := mem_splitOn_iff.mp between
    obtain ⟨left, right, whole, blank, blank'⟩ := exists_blanks piece
    exact ⟨before, left, right, after, by rw [← whole, all], start, stop, blank, blank'⟩

lemma mem_namesIn_iff : name ∈ namesIn text ↔
    ∃ word, Lists text.toList word ∧ IsHeaderName word ∧ word.map Char.toLower = name.toList := by
  simp only [namesIn, List.mem_filterMap, headerName?_eq_some_iff]
  constructor
  · rintro ⟨piece, between, proper, lowered⟩
    exact ⟨_, (lists_iff_exists_piece proper.2.2).mpr ⟨piece, between, rfl⟩, proper, lowered⟩
  · rintro ⟨word, lists, proper, lowered⟩
    obtain ⟨piece, between, rfl⟩ := (lists_iff_exists_piece proper.2.2).mp lists
    exact ⟨piece, between, proper, lowered⟩

lemma mem_listedNames_iff : name ∈ listedNames h ↔ Listed h name := by
  simp only [listedNames, List.mem_flatMap, List.mem_filterMap, mem_namesIn_iff, Listed]
  constructor
  · rintro ⟨text, ⟨value, mem, read⟩, word, lists⟩
    exact ⟨value, mem, text, word, read, lists⟩
  · rintro ⟨value, mem, text, word, read, lists⟩
    exact ⟨text, ⟨value, mem, read⟩, word, lists⟩

lemma isHopByHop_iff : IsHopByHop h name ↔ name ∈ fixedNames ∨ name ∈ listedNames h :=
  or_congr_right mem_listedNames_iff.symm

instance (h : Headers) (name : String) : Decidable (IsHopByHop h name) :=
  decidable_of_iff _ isHopByHop_iff.symm

lemma entries_strip :
    (strip h).entries = h.entries.filter fun e => ¬ IsHopByHop h e.1 := by
  rw [strip, Headers.removeAll, Headers.removeAll, List.filter_filter]
  refine List.filter_congr fun e _ => ?_
  rw [← Bool.decide_and, decide_eq_decide, isHopByHop_iff, not_or]

/-- Nothing is listed once the connection header is gone. -/
lemma listedNames_strip : listedNames (strip h) = [] := by
  have gone : (strip h).values "connection" = [] := by
    rw [values_strip]
    exact if_pos (.inl (by decide))
  rw [listedNames, gone]
  rfl

lemma strip_strip : strip (strip h) = strip h := by
  have again : (strip h).removeAll [] = strip h := by simp [Headers.removeAll]
  have fixed : (strip h).removeAll fixedNames = strip h := by
    rw [strip, Headers.removeAll, Headers.removeAll, List.filter_filter]
    simp only [Bool.and_self]
  rw [strip.eq_1 (strip h), listedNames_strip, again, fixed]

/-- Stripping removes the entries under the names that belong to the connection and no others. Each
other name keeps its values in order, and a second time changes nothing. -/
theorem strip_exact (h : Headers) :
    (strip h).entries = h.entries.filter (fun e => ¬ IsHopByHop h e.1) ∧
      (∀ name, (strip h).values name = if IsHopByHop h name then [] else h.values name) ∧
      strip (strip h) = strip h := by
  refine ⟨entries_strip, fun name => ?_, strip_strip⟩
  rw [values_strip]
  exact if_congr isHopByHop_iff.symm rfl rfl

/-- Blanks and letter case do not hide a name, and what is no header name removes nothing. -/
example : strip ⟨[("connection", Bytes.ofText "a b, \tX-Session "), ("x-session", [0x31]),
      ("connection", [0xC3]), ("x-kept", [0x31]), ("x-session", [0x32]), ("x-kept", [0x32])]⟩ =
    ⟨[("x-kept", [0x31]), ("x-kept", [0x32])]⟩ := by decide +kernel

end HopByHop
end Gateway
