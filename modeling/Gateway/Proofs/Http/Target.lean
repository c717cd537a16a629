import Mathlib.Tactic.Common
import Gateway.Http.Uri

/-! What reading makes of the path of a request target. -/
namespace Gateway

namespace Uri
variable {cs : List Char} {p : PathQuery} {u v : Uri} {s : String}

/-- A path in a target is not empty and has no mark that would end it. -/
def IsPath (path : String) : Prop := path ≠ "" ∧ ∀ c ∈ path.toList, isPathChar c = true

/-- The target has a path as reading leaves it, or is an authority alone. -/
def IsRead (u : Uri) : Prop := u.hasPath = true → IsPath u.path

/-- The target up to its query. -/
def target (u : Uri) : Uri := { u with query := none }

lemma path_of_target (e : v.target = u.target) : v.path = u.path := by
  have path : v.target.path = u.target.path := congrArg Uri.path e
  exact path

lemma hasPath_of_target (e : v.target = u.target) : v.hasPath = u.hasPath := by
  have has : v.target.hasPath = u.target.hasPath := congrArg hasPath e
  exact has

lemma IsRead.congr (h : u.IsRead) (e : v.target = u.target) : v.IsRead := by
  intro hv
  rw [path_of_target e]
  exact h ((hasPath_of_target e).symm.trans hv)

lemma isPath_ofList (hne : cs ≠ []) (h : ∀ c ∈ cs, isPathChar c = true) : IsPath (String.ofList cs) := by
  constructor
  · intro e
    exact hne (by rw [← String.toList_ofList (l := cs), e]; rfl)
  · rwa [String.toList_ofList]

lemma isPath_char {c : Char} (h : isPathChar c = true) : IsPath (String.ofList [c]) :=
  isPath_ofList (List.cons_ne_nil _ _) (List.forall_mem_singleton.mpr h)

/-- The path goes up to the first mark; an empty one is shown as the root. -/
lemma scanPathQuery_path (h : scanPathQuery cs = .ok p) :
    ((cs.takeWhile (· ≠ '#')).takeWhile (· ≠ '?')).all isPathChar = true ∧
      p.path = if (cs.takeWhile (· ≠ '#')).takeWhile (· ≠ '?') = [] then "/"
        else String.ofList ((cs.takeWhile (· ≠ '#')).takeWhile (· ≠ '?')) := by
  unfold scanPathQuery at h
  dsimp only at h
  split at h
  · cases h
  · next valid =>
    refine ⟨by simpa using valid, ?_⟩
    split at h
    · obtain rfl := Except.ok.inj h
      rfl
    · split at h
      · obtain rfl := Except.ok.inj h
        rfl
      · cases h

lemma isPath_of_scanPathQuery (h : scanPathQuery cs = .ok p) : IsPath p.path := by
  obtain ⟨valid, path⟩ := scanPathQuery_path h
  rw [path]
  split
  · exact isPath_char (c := '/') rfl
  · next hne => exact isPath_ofList hne (List.all_eq_true.mp valid)

lemma exists_of_bind_ok {α β : Type} {j : Except UriError α} {f : α → Except UriError β} {b : β}
    (h : j >>= f = .ok b) : ∃ a, j = .ok a ∧ f a = .ok b := by
  cases j with
  | error e => cases h
  | ok a => exact ⟨a, rfl, h⟩

lemma ofAuthority_ok (h : ofAuthority cs = .ok u) :
    u.scheme = none ∧ u.hasPath = false ∧ u.path = "" := by
  obtain ⟨⟨authority, rest⟩, -, h⟩ := exists_of_bind_ok h
  dsimp only at h
  split at h
  · obtain rfl := Except.ok.inj h
    exact ⟨rfl, rfl, rfl⟩
  · cases h

lemma ofPathQuery_ok (h : ofPathQuery cs = .ok u) : IsPath u.path := by
  obtain ⟨p, hp, h⟩ := exists_of_bind_ok h
  obtain rfl := Except.ok.inj h
  exact isPath_of_scanPathQuery hp

lemma ofAbsolute_ok {scheme : String} (h : ofAbsolute scheme cs = .ok u) : IsPath u.path := by
  obtain ⟨⟨authority, rest⟩, -, h⟩ := exists_of_bind_ok h
  dsimp only at h
  split at h
  · cases h
  · obtain ⟨p, hp, h⟩ := exists_of_bind_ok h
    obtain rfl := Except.ok.inj h
    exact isPath_of_scanPathQuery hp

/-- Targets are read in one of four forms. -/
theorem parse_cases (h : parse s = .ok u) : u = { path := "*" } ∨ (∃ cs, ofPathQuery cs = .ok u) ∨
    (∃ cs, ofAuthority cs = .ok u) ∨ ∃ scheme cs, ofAbsolute scheme cs = .ok u := by
  unfold parse at h
  split at h
  · cases h
  · split at h
    · cases h
    · exact .inl (Except.ok.inj h).symm
    · exact .inr (.inl ⟨_, h⟩)
    · split at h
      · cases h
      · exact .inr (.inr (.inl ⟨_, h⟩))
    · obtain ⟨split, -, h⟩ := exists_of_bind_ok h
      cases split with
      | none => exact .inr (.inr (.inl ⟨_, h⟩))
      | some split => exact .inr (.inr (.inr ⟨_, _, h⟩))

theorem isRead_of_parse (h : parse s = .ok u) : u.IsRead := by
  rcases parse_cases h with rfl | ⟨cs, h⟩ | ⟨cs, h⟩ | ⟨scheme, cs, h⟩
  · exact fun _ => isPath_char (c := '*') rfl
  · exact fun _ => ofPathQuery_ok h
  · intro hu
    rw [(ofAuthority_ok h).2.1] at hu
    cases hu
  · exact fun _ => ofAbsolute_ok h

/-- Only an authority alone is read with an empty path. -/
lemma isPath_of_parse (h : parse s = .ok u) (ne : u.path ≠ "") : IsPath u.path := by
  rcases parse_cases h with rfl | ⟨cs, h⟩ | ⟨cs, h⟩ | ⟨scheme, cs, h⟩
  · exact isPath_char (c := '*') rfl
  · exact ofPathQuery_ok h
  · exact absurd (ofAuthority_ok h).2.2 ne
  · exact ofAbsolute_ok h

lemma IsPath.ne_mark {path : String} (hp : IsPath path) :
    ∀ c ∈ path.toList, c ≠ '#' ∧ c ≠ '?' := by
  intro c hc
  constructor <;>
  · rintro rfl
    exact absurd (hp.2 _ hc) (by decide)

lemma takeWhile_append_of_head {c : Char} {rest : List Char} (h : ∀ x ∈ cs, x ≠ c)
    (hr : rest = [] ∨ ∃ more, rest = c :: more) : (cs ++ rest).takeWhile (· ≠ c) = cs := by
  rw [List.takeWhile_append_of_pos (by simpa using h)]
  rcases hr with rfl | ⟨more, rfl⟩ <;> simp

end Uri
end Gateway
