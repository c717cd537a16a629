import Mathlib.Data.List.DropRight
import Mathlib.Tactic.Common
import Gateway.Route.Pattern

/-! Paths up to the slashes at their end. A pattern stands above a path when the path is the
pattern's text or goes on after it with a slash. -/
namespace Gateway

lemma trimSlashChars_eq (cs : List Char) : trimSlashChars cs = cs.rdropWhile (· = '/') := rfl

lemma trimSlashChars_trimSlashChars (cs : List Char) :
    trimSlashChars (trimSlashChars cs) = trimSlashChars cs := by
  rw [trimSlashChars_eq, trimSlashChars_eq, List.rdropWhile_idempotent]

lemma exists_slashes (cs : List Char) :
    ∃ n, cs = trimSlashChars cs ++ List.replicate n '/' := by
  let p : Char → Bool := fun c => c = '/'
  have slashes : cs.rtakeWhile p = List.replicate (cs.rtakeWhile p).length '/' :=
    List.eq_replicate_iff.mpr
      ⟨rfl, fun c hc => of_decide_eq_true (List.mem_rtakeWhile_imp (p := p) hc)⟩
  have split : trimSlashChars cs ++ cs.rtakeWhile p = cs := List.rdropWhile_append_rtakeWhile ..
  exact ⟨(cs.rtakeWhile p).length, by rw [← slashes, split]⟩

lemma toList_trimSlashes (s : String) : (trimSlashes s).toList = trimSlashChars s.toList := by
  rw [trimSlashes, String.toList_ofList]

lemma normalizePath_of_trim_ne_nil {path : String} (h : trimSlashChars path.toList ≠ []) :
    (normalizePath path).toList = trimSlashChars path.toList := by
  rw [normalizePath, if_neg h, toList_trimSlashes]

lemma normalizePath_of_trim_eq_nil {path : String} (h : trimSlashChars path.toList = []) :
    normalizePath path = "/" := by
  rw [normalizePath, if_pos h]

theorem normalizePath_normalizePath (path : String) :
    normalizePath (normalizePath path) = normalizePath path := by
  by_cases h : trimSlashChars path.toList = []
  · rw [normalizePath_of_trim_eq_nil h]
    rfl
  · have hn := normalizePath_of_trim_ne_nil h
    have hid := trimSlashChars_trimSlashChars path.toList
    apply String.toList_injective
    rw [normalizePath_of_trim_ne_nil (by rwa [hn, hid]), hn, hid]

lemma head_normalizePath {path : String} (h : path ≠ "") :
    (normalizePath path).toList.head? = path.toList.head? := by
  obtain ⟨n, hn⟩ := exists_slashes path.toList
  by_cases hc : trimSlashChars path.toList = []
  · rw [hc, List.nil_append] at hn
    cases n with
    | zero => exact absurd (String.toList_eq_nil_iff.mp hn) h
    | succ n =>
      rw [normalizePath_of_trim_eq_nil hc, hn]
      rfl
  · have front : (trimSlashChars path.toList ++ List.replicate n '/').head? =
        (trimSlashChars path.toList).head? := List.head?_append_of_ne_nil _ hc
    rw [normalizePath_of_trim_ne_nil hc, ← front, ← hn]

namespace Pattern

/-- The path is the text, or goes on after it with a slash; everything with a slash at its start is
below the root. -/
def IsAbove (text path : String) : Prop :=
  path = text ∨ text.toList ++ ['/'] <+: path.toList ∨ (text = "/" ∧ path.toList.head? = some '/')

def IsRooted (p : Pattern) : Prop := p.text.toList.head? = some '/'

variable {p : Pattern} {text other path : String} {policy : MatchPolicy}

lemma isRooted_of_parse (h : parse? path policy = some p) : p.IsRooted := by
  unfold parse? at h
  split at h
  · next slash =>
    obtain rfl := Option.some.inj h
    refine (head_normalizePath ?_).trans slash
    rintro rfl
    cases slash
  · cases h

/-- Whole segments are compared. -/
theorem covers_below_iff (h : p.policy = .below) : p.covers path = true ↔ IsAbove p.text path := by
  obtain ⟨text, policy⟩ := p
  obtain rfl : policy = .below := h
  unfold covers IsAbove
  by_cases root : text = "/"
  · subst root
    dsimp only
    rw [if_pos rfl, decide_eq_true_eq]
    constructor
    · intro h
      exact .inr (.inr ⟨rfl, h⟩)
    · rintro (rfl | ⟨rest, h⟩ | ⟨-, h⟩)
      · rfl
      · rw [← h]
        rfl
      · exact h
  · dsimp only
    rw [if_neg root, rest?, or_iff_left (b := text = "/" ∧ _) fun h => root h.1]
    by_cases front : text.toList <+: path.toList
    · obtain ⟨rest, hrest⟩ := front
      rw [if_pos (List.isPrefixOf_iff_prefix.mpr ⟨rest, hrest⟩), ← hrest, List.drop_left]
      cases rest with
      | nil =>
        rw [List.append_nil] at hrest
        exact iff_of_true rfl (.inl (String.toList_injective hrest.symm))
      | cons c rest =>
        rw [decide_eq_true_eq]
        constructor
        · rintro rfl
          exact .inr ⟨rest, by simp⟩
        · rintro (rfl | ⟨more, h⟩)
          · simp at hrest
          · rw [List.append_assoc] at h
            exact (List.head_eq_of_cons_eq (List.append_cancel_left h)).symm
    · rw [if_neg (mt List.isPrefixOf_iff_prefix.mp front)]
      refine iff_of_false Bool.false_ne_true ?_
      rintro (rfl | h)
      · exact front List.prefix_rfl
      · exact front ((List.prefix_append ..).trans h)

/-- A pattern stands above every spelling of its own path, except for the empty one. -/
theorem isAbove_of_normalizePath (h : normalizePath path = text) (hp : path ≠ "") :
    IsAbove text path := by
  obtain ⟨n, hn⟩ := exists_slashes path.toList
  by_cases hc : trimSlashChars path.toList = []
  · rw [normalizePath_of_trim_eq_nil hc] at h
    rw [hc, List.nil_append] at hn
    cases n with
    | zero => exact absurd (String.toList_eq_nil_iff.mp hn) hp
    | succ n => exact .inr (.inr ⟨h.symm, by rw [hn]; rfl⟩)
  · rw [← normalizePath_of_trim_ne_nil hc, h] at hn
    cases n with
    | zero => exact .inl (String.toList_injective (by rw [hn, List.replicate_zero, List.append_nil]))
    | succ n =>
      refine .inr (.inl ⟨List.replicate n '/', ?_⟩)
      rw [hn, List.replicate_succ, List.append_assoc]
      rfl

lemma IsAbove.prefix (h : IsAbove text path) : text.toList <+: path.toList := by
  rcases h with rfl | h | ⟨rfl, h⟩
  · exact List.prefix_rfl
  · exact (List.prefix_append ..).trans h
  · cases hp : path.toList with
    | nil => simp [hp] at h
    | cons c rest =>
      rw [hp] at h
      obtain rfl := Option.some.inj h
      exact ⟨rest, rfl⟩

lemma eq_of_prefix_of_size (h : text.toList <+: other.toList)
    (size : text.utf8ByteSize = other.utf8ByteSize) : text = other := by
  obtain ⟨rest, h⟩ := h
  have e : other = text ++ String.ofList rest := by
    apply String.toList_injective
    rw [← h, String.toList_append, String.toList_ofList]
  rw [e, String.utf8ByteSize_append] at size
  have nothing : String.ofList rest = "" := String.utf8ByteSize_eq_zero_iff.mp (by omega)
  rw [e, nothing, String.append_empty]

/-- Of the patterns above a path only one has a given length. -/
theorem IsAbove.eq_of_size (h : IsAbove text path) (g : IsAbove other path)
    (size : text.utf8ByteSize = other.utf8ByteSize) : text = other := by
  rcases List.prefix_or_prefix_of_prefix h.prefix g.prefix with hp | hp
  · exact eq_of_prefix_of_size hp size
  · exact (eq_of_prefix_of_size hp size.symm).symm

end Pattern
end Gateway
