import Mathlib.Data.List.DropRight
import Mathlib.Tactic.Common
import Gateway.Http.HopByHop

/-! Lists written as one text, with commas between the elements. Blanks around an element do not
belong to it. -/
namespace Gateway

section Pieces
variable {α : Type} [BEq α] [LawfulBEq α] {l piece : List α} {x : α}

/-- A piece of a list has no separator in it and stands between separators or the ends. -/
lemma exists_of_mem_splitOn {l : List α} (h : piece ∈ l.splitOn x) :
    x ∉ piece ∧ ∃ before after, l = before ++ piece ++ after ∧
      (before = [] ∨ [x] <:+ before) ∧ (after = [] ∨ [x] <+: after) := by
  -- The pieces after the first separator are those of what follows it, which is shorter.
  by_cases more : x ∈ l
  · obtain ⟨first, rest, rfl, fresh⟩ := List.eq_append_cons_of_mem more
    rw [List.splitOn_append_cons_self_of_not_mem fresh, List.mem_cons] at h
    rcases h with rfl | later
    · exact ⟨fresh, [], x :: rest, rfl, .inl rfl, .inr ⟨rest, rfl⟩⟩
    · obtain ⟨whole, before, after, rfl, start, stop⟩ := exists_of_mem_splitOn later
      refine ⟨whole, first ++ x :: before, after, by simp, .inr ?_, stop⟩
      rcases start with rfl | start
      · exact List.suffix_append first [x]
      · exact start.trans ((List.suffix_cons x before).trans (List.suffix_append ..))
  · rw [List.splitOn_eq_singleton more, List.mem_singleton] at h
    subst h
    exact ⟨more, [], [], by simp, .inl rfl, .inl rfl⟩
termination_by l.length

theorem mem_splitOn_iff : piece ∈ l.splitOn x ↔ x ∉ piece ∧ ∃ before after,
    l = before ++ piece ++ after ∧ (before = [] ∨ [x] <:+ before) ∧ (after = [] ∨ [x] <+: after) := by
  refine ⟨exists_of_mem_splitOn, ?_⟩
  rintro ⟨whole, before, after, rfl, start, stop⟩
  have first : piece ∈ (piece ++ after).splitOn x := by
    rcases stop with rfl | ⟨rest, rfl⟩
    · rw [List.append_nil, List.splitOn_eq_singleton whole]
      exact List.mem_singleton_self piece
    · rw [List.singleton_append, List.splitOn_append_cons_self_of_not_mem whole]
      exact List.mem_cons_self
  rcases start with rfl | ⟨front, rfl⟩
  · exact first
  · rw [List.append_assoc, List.append_assoc, List.singleton_append, List.splitOn_append_cons_self]
    exact List.mem_append_right _ first

end Pieces

namespace HopByHop
variable {cs left right word : List Char}

def isBlank (c : Char) : Bool := c = ' ' || c = '\t'

lemma trimBlanks_eq (cs : List Char) :
    trimBlanks cs = (cs.dropWhile isBlank).rdropWhile isBlank := rfl

lemma trimBlanks_append (blank : ∀ c ∈ left, isBlank c = true) :
    trimBlanks (left ++ cs) = trimBlanks cs := by
  rw [trimBlanks_eq, List.dropWhile_append_of_pos blank, ← trimBlanks_eq]

lemma exists_blanks (cs : List Char) : ∃ left right, cs = left ++ trimBlanks cs ++ right ∧
    (∀ c ∈ left, isBlank c = true) ∧ ∀ c ∈ right, isBlank c = true := by
  refine ⟨cs.takeWhile isBlank, (cs.dropWhile isBlank).rtakeWhile isBlank, ?_,
    fun c hc => List.mem_takeWhile_imp hc, fun c hc => List.mem_rtakeWhile_imp hc⟩
  rw [trimBlanks_eq, List.append_assoc, List.rdropWhile_append_rtakeWhile,
    List.takeWhile_append_dropWhile]

/-- A word without blanks is all that is left of it with blanks around. -/
lemma trimBlanks_padded (before : ∀ c ∈ left, isBlank c = true)
    (after : ∀ c ∈ right, isBlank c = true) (bare : ∀ c ∈ word, isBlank c = false) :
    trimBlanks (left ++ word ++ right) = word := by
  rw [List.append_assoc, trimBlanks_append before]
  cases word with
  | nil =>
    rw [List.nil_append, ← List.append_nil right, trimBlanks_append after]
    rfl
  | cons c rest =>
    have kept : ((c :: rest) ++ right).dropWhile isBlank = (c :: rest) ++ right :=
      List.dropWhile_cons_of_neg (by simp [bare c List.mem_cons_self])
    rw [trimBlanks_eq, kept, List.rdropWhile, List.reverse_append,
      List.dropWhile_append_of_pos (by simpa using after), ← List.rdropWhile,
      List.rdropWhile_eq_self_iff]
    intro ne
    simp [bare _ (List.getLast_mem ne)]

end HopByHop

/-- The elements of a list written with commas. -/
def elements (text : String) : List String :=
  (text.toList.splitOn ',').map fun cs => String.ofList (HopByHop.trimBlanks cs)

lemma elements_ne_nil (text : String) : elements text ≠ [] :=
  fun none => List.splitOn_ne_nil _ _ (List.map_eq_nil_iff.mp none)

lemma elements_eq_singleton {text : String}
    (bare : ∀ c ∈ text.toList, c ≠ ',' ∧ HopByHop.isBlank c = false) : elements text = [text] := by
  have whole : text.toList.splitOn ',' = [text.toList] :=
    List.splitOn_eq_singleton fun comma => (bare _ comma).1 rfl
  have trimmed : HopByHop.trimBlanks ([] ++ text.toList ++ []) = text.toList :=
    HopByHop.trimBlanks_padded (List.forall_mem_nil _) (List.forall_mem_nil _) fun c hc => (bare c hc).2
  rw [List.nil_append, List.append_nil] at trimmed
  rw [elements, whole, List.map_singleton, trimmed, String.ofList_toList]

lemma elements_append (s t : String) : elements (s ++ ", " ++ t) = elements s ++ elements t := by
  have chars : (s ++ ", " ++ t).toList = s.toList ++ ',' :: ' ' :: t.toList := by simp
  have trimmed (cs : List Char) : HopByHop.trimBlanks ([' '] ++ cs) = HopByHop.trimBlanks cs :=
    HopByHop.trimBlanks_append (List.forall_mem_singleton.mpr rfl)
  -- The blank belongs to the first element of the second text, where it is taken off.
  have blank : elements t = ((' ' :: t.toList).splitOn ',').map
      fun cs => String.ofList (HopByHop.trimBlanks cs) := by
    obtain ⟨first, rest, split⟩ := List.exists_cons_of_ne_nil (List.splitOn_ne_nil ',' t.toList)
    rw [elements, List.splitOn_cons_eq_if_modifyHead, if_neg (by decide), split]
    exact congrArg (String.ofList · :: _) (trimmed first).symm
  rw [elements, chars, List.splitOn_append_cons_self, List.map_append, ← blank, ← elements]

/-- Texts joined to one have their elements in order. -/
lemma elements_intercalate {texts : List String} (ne : texts ≠ []) :
    elements (", ".intercalate texts) = texts.flatMap elements := by
  induction texts with
  | nil => exact absurd rfl ne
  | cons s rest ih =>
    cases rest with
    | nil => simp
    | cons t rest =>
      rw [String.intercalate_cons_cons, elements_append, ih (List.cons_ne_nil _ _)]
      exact List.flatMap_cons.symm

end Gateway
