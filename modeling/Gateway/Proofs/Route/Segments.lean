import Gateway.Proofs.Route.Path

/-! Paths by their segments. A pattern stands above the paths from the root whose segments begin with
its own. -/
namespace Gateway

lemma intercalate_append_cons {α : Type} {sep l : List α} {before after : List (List α)}
    (ne : before ≠ []) : sep.intercalate (before ++ l :: after) =
      sep.intercalate before ++ sep ++ sep.intercalate (l :: after) := by
  induction before with
  | nil => exact absurd rfl ne
  | cons first more ih =>
    cases more with
    | nil => simp [List.intercalate_cons_of_ne_nil]
    | cons second rest =>
      have others := ih (List.cons_ne_nil _ _)
      rw [List.cons_append, List.intercalate_cons_of_ne_nil (by simp), others,
        List.intercalate_cons_of_ne_nil (List.cons_ne_nil second rest)]
      simp only [List.append_assoc]

/-- The pieces of a list begin with those of another one if it is that one, or goes on after it with a
separator. -/
theorem splitOn_prefix_iff {α : Type} [BEq α] [LawfulBEq α] {a b : List α} {x : α} :
    a.splitOn x <+: b.splitOn x ↔ b = a ∨ a ++ [x] <+: b := by
  constructor
  · rintro ⟨more, pieces⟩
    have joined : b = [x].intercalate (a.splitOn x ++ more) := by
      rw [pieces, List.intercalate_splitOn]
    cases more with
    | nil => exact .inl (by rw [joined, List.append_nil, List.intercalate_splitOn])
    | cons l rest =>
      refine .inr ⟨[x].intercalate (l :: rest), ?_⟩
      rw [joined, intercalate_append_cons (List.splitOn_ne_nil _ _), List.intercalate_splitOn]
  · rintro (rfl | ⟨rest, rfl⟩)
    · exact List.prefix_rfl
    · rw [List.append_assoc, List.singleton_append, List.splitOn_append_cons_self]
      exact List.prefix_append _ _

/-- The segments of a path. Slashes at its end make none. -/
def segments (path : String) : List (List Char) := ((trimSlashChars path.toList).splitOn '/').tail

variable {entry path : String} {cs ds : List Char}

lemma trimSlashChars_append_slashes (cs : List Char) (n : Nat) :
    trimSlashChars (cs ++ List.replicate n '/') = trimSlashChars cs := by
  induction n with
  | zero => rw [List.replicate_zero, List.append_nil]
  | succ n ih =>
    rw [List.replicate_succ', ← List.append_assoc, trimSlashChars_eq,
      List.rdropWhile_concat_pos _ _ _ (by decide), ← trimSlashChars_eq, ih]

/-- Slashes at the end of a path do not matter to what it goes on with after a text that has none. -/
lemma goesOn_trim_iff (trimmed : trimSlashChars cs = cs) :
    (ds = cs ∨ cs ++ ['/'] <+: ds) ↔ trimSlashChars ds = cs ∨ cs ++ ['/'] <+: trimSlashChars ds := by
  obtain ⟨n, all⟩ := exists_slashes ds
  have front : trimSlashChars ds <+: ds := ⟨_, all.symm⟩
  constructor
  · rintro (rfl | h)
    · exact .inl trimmed
    · rcases List.prefix_or_prefix_of_prefix h front with within | beyond
      · exact .inr within
      · rcases List.prefix_concat_iff.mp beyond with same | ⟨more, rest⟩
        · exact .inr (same ▸ List.prefix_rfl)
        · -- Only slashes of the end are left for the text to go on with, and it does not end in one.
          left
          rw [all, ← rest, List.append_assoc, List.prefix_append_right_inj] at h
          obtain ⟨-, slashes⟩ := List.prefix_replicate_iff.mp ((List.prefix_append more ['/']).trans h)
          have ended : trimSlashChars cs = trimSlashChars (trimSlashChars ds) := by
            rw [← rest, slashes, trimSlashChars_append_slashes]
          rw [← trimmed, ended, trimSlashChars_trimSlashChars]
  · rintro (same | h)
    · cases n with
      | zero =>
        rw [List.replicate_zero, List.append_nil, same] at all
        exact .inl all
      | succ n =>
        refine .inr ⟨List.replicate n '/', ?_⟩
        rw [List.append_assoc, List.singleton_append, ← List.replicate_succ, ← same, ← all]
    · exact .inr (h.trans front)

lemma splitOn_of_rooted (rooted : path.toList.head? = some '/') :
    (trimSlashChars path.toList).splitOn '/' = [] :: segments path := by
  have first : (trimSlashChars path.toList).head? = some '/' ∨ trimSlashChars path.toList = [] := by
    obtain ⟨n, all⟩ := exists_slashes path.toList
    by_cases none : trimSlashChars path.toList = []
    · exact .inr none
    · left
      rw [← rooted, ← List.head?_append_of_ne_nil _ none, ← all]
  unfold segments
  rcases first with first | none
  · obtain ⟨rest, chars⟩ := List.head?_eq_some_iff.mp first
    rw [chars, List.splitOn_cons_eq_if_modifyHead]
    rfl
  · rw [none]
    rfl

/-- Above a path stands a text that it is, or goes on after with a slash. -/
lemma Pattern.isAbove_iff_goesOn (ne : trimSlashChars entry.toList ≠ []) :
    IsAbove (normalizePath entry) path ↔ path.toList = trimSlashChars entry.toList ∨
      trimSlashChars entry.toList ++ ['/'] <+: path.toList := by
  have text := normalizePath_of_trim_ne_nil ne
  have notRoot : normalizePath entry ≠ "/" := by
    intro same
    have ended := trimSlashChars_trimSlashChars entry.toList
    rw [← text, same] at ended
    exact absurd ended (by decide)
  rw [IsAbove, text, or_iff_left (b := normalizePath entry = "/" ∧ _) fun h => notRoot h.1, ← text,
    String.toList_inj]

/-- Above a path from the root stand the texts whose segments its own begin with. -/
theorem Pattern.isAbove_iff_segments (rooted : entry.toList.head? = some '/') :
    IsAbove (normalizePath entry) path ↔
      path.toList.head? = some '/' ∧ segments entry <+: segments path := by
  by_cases root : trimSlashChars entry.toList = []
  · have everything : segments entry <+: segments path := by
      rw [segments, root]
      exact List.nil_prefix
    rw [normalizePath_of_trim_eq_nil root, and_iff_left everything]
    constructor
    · intro above
      obtain ⟨rest, chars⟩ := above.prefix
      rw [← chars]
      rfl
    · exact fun below => .inr (.inr ⟨rfl, below⟩)
  · have first : (normalizePath entry).toList.head? = some '/' := by
      rw [head_normalizePath, rooted]
      rintro rfl
      cases rooted
    have below (h : IsAbove (normalizePath entry) path) : path.toList.head? = some '/' := by
      obtain ⟨rest, chars⟩ := h.prefix
      rw [← chars, List.head?_append, first]
      rfl
    by_cases slash : path.toList.head? = some '/'
    · rw [isAbove_iff_goesOn root, goesOn_trim_iff (trimSlashChars_trimSlashChars _),
        ← splitOn_prefix_iff, splitOn_of_rooted rooted, splitOn_of_rooted slash,
        List.cons_prefix_cons, and_iff_right rfl, and_iff_right slash]
    · exact iff_of_false (mt below slash) fun h => slash h.1

end Gateway
