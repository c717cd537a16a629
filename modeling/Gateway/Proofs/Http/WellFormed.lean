import Mathlib.Data.String.Basic
import Gateway.Proofs.Http.Absolute

/-! Targets as reading leaves them. Their path and query together are no longer than what is read at
once, also where the path is put in for one that was left out. -/
namespace Gateway.Uri
variable {cs rest : List Char} {p : PathQuery} {u v : Uri} {s : String}

/-- The target has a path that is valid and not too long with its query, or it is an authority alone. -/
structure IsWellFormed (u : Uri) : Prop where
  read : u.IsRead
  size : ∀ text ∈ u.pathQueryText?, text.utf8ByteSize ≤ maxLength
  bare : u.hasPath = false → u.path = ""

/-- The path up to a question mark or the end is shown as it is, or as the root. -/
lemma utf8ByteSize_of_scanPathQuery (h : scanPathQuery cs = .ok p) :
    p.text.utf8ByteSize ≤ String.utf8Len cs + if cs.head? = some '/' then 0 else 1 := by
  unfold scanPathQuery at h
  dsimp only at h
  generalize body : cs.takeWhile (· ≠ '#') = front at h
  have parts : String.utf8Len (front.takeWhile (· ≠ '?')) + String.utf8Len (front.dropWhile (· ≠ '?')) ≤
      String.utf8Len cs := by
    rw [← String.utf8Len_append, List.takeWhile_append_dropWhile, ← body]
    exact String.utf8Len_le_of_prefix (List.takeWhile_prefix _)
  generalize path : front.takeWhile (· ≠ '?') = name at h parts
  have shown : (if name = [] then "/" else String.ofList name).utf8ByteSize ≤
      String.utf8Len name + if cs.head? = some '/' then 0 else 1 := by
    by_cases empty : name = []
    · have unrooted : cs.head? ≠ some '/' := by
        intro head
        obtain ⟨more, rfl⟩ := List.head?_eq_some_iff.mp head
        simp [← body, ← path] at empty
      rw [if_pos empty, if_neg unrooted, empty]
      decide
    · rw [if_neg empty, String.utf8ByteSize_ofList]
      omega
  split at h
  · cases h
  split at h
  · obtain rfl := Except.ok.inj h
    exact shown.trans (by omega)
  · next c query mark =>
    split at h
    · obtain rfl := Except.ok.inj h
      have one : "?".utf8ByteSize = 1 := by decide
      have pos := c.utf8Size_pos
      rw [mark, String.utf8Len_cons] at parts
      simp only [PathQuery.text, String.utf8ByteSize_append, String.utf8ByteSize_ofList, one]
      omega
    · cases h

lemma utf8Len_of_splitScheme {scheme : String} (h : splitScheme cs = .ok (some (scheme, rest))) :
    String.utf8Len rest ≤ String.utf8Len cs := by
  unfold splitScheme at h
  have dropped (ds : List Char) (n : ℕ) : String.utf8Len (ds.drop n) ≤ String.utf8Len ds :=
    String.utf8Len_le_of_suffix (List.drop_suffix n ds)
  split at h
  · cases h
    exact dropped cs 7
  · split at h
    · cases h
      exact dropped cs 8
    · dsimp only at h
      split at h
      · split at h
        · cases h
        · cases h
          exact (dropped _ 3).trans (String.utf8Len_le_of_suffix (List.dropWhile_suffix _))
      · cases h

lemma utf8Len_of_scanAuthority {front : List Char} (h : scanAuthority cs = .ok (front, rest)) (ne : front ≠ []) :
    String.utf8Len rest < String.utf8Len cs := by
  unfold scanAuthority at h
  split at h
  · cases h
  dsimp only at h
  split at h
  · cases h
  split at h
  · obtain ⟨rfl, rfl⟩ := Prod.mk.inj (Except.ok.inj h)
    have pos : String.utf8Len (cs.takeWhile fun c => !endsAuthority c) ≠ 0 := mt String.utf8Len_eq_zero.mp ne
    have parts := congrArg String.utf8Len (cs.takeWhile_append_dropWhile (p := fun c => !endsAuthority c))
    rw [String.utf8Len_append] at parts
    omega
  · cases h

lemma ofAuthority_wellFormed (h : ofAuthority cs = .ok u) : u.IsWellFormed := by
  obtain ⟨-, bare, path⟩ := ofAuthority_ok h
  have none : u.pathQueryText? = .none := by rw [pathQueryText?, bare, if_neg nofun]
  exact ⟨fun has => absurd has (by rw [bare]; nofun), by rw [none]; nofun, fun _ => path⟩

lemma ofPathQuery_wellFormed (h : ofPathQuery cs = .ok u) (rooted : cs.head? = some '/')
    (size : String.utf8Len cs ≤ maxLength) : u.IsWellFormed := by
  have read := ofPathQuery_ok h
  obtain ⟨p, scanned, h⟩ := exists_of_bind_ok h
  obtain rfl := Except.ok.inj h
  refine ⟨fun _ => read, fun text ht => ?_, nofun⟩
  obtain rfl := Option.some.inj ht
  have bound := utf8ByteSize_of_scanPathQuery scanned
  rw [if_pos rooted] at bound
  exact bound.trans size

lemma ofAbsolute_wellFormed {scheme : String} (h : ofAbsolute scheme cs = .ok u)
    (size : String.utf8Len cs ≤ maxLength) : u.IsWellFormed := by
  have read := ofAbsolute_ok h
  obtain ⟨⟨authority, rest⟩, scanned, h⟩ := exists_of_bind_ok h
  dsimp only at h
  split at h
  · cases h
  · next ne =>
    obtain ⟨p, scannedPath, h⟩ := exists_of_bind_ok h
    obtain rfl := Except.ok.inj h
    refine ⟨fun _ => read, fun text ht => ?_, nofun⟩
    obtain rfl := Option.some.inj ht
    have bound := utf8ByteSize_of_scanPathQuery scannedPath
    have less := utf8Len_of_scanAuthority scanned ne
    change p.text.utf8ByteSize ≤ maxLength
    split at bound <;> omega

/-- Whatever is read is well-formed. -/
theorem isWellFormed_of_parse (h : parse s = .ok u) : u.IsWellFormed := by
  unfold parse at h
  split at h
  · cases h
  · next long =>
    have size : String.utf8Len s.toList ≤ maxLength := by
      rw [String.utf8Len_toList]
      omega
    split at h
    · cases h
    · obtain rfl := Except.ok.inj h
      refine ⟨fun _ => isPath_char (c := '*') rfl, fun text ht => ?_, nofun⟩
      obtain rfl := Option.some.inj ht
      decide
    · next chars =>
      rw [chars] at size
      exact ofPathQuery_wellFormed h rfl size
    · split at h
      · cases h
      · exact ofAuthority_wellFormed h
    · obtain ⟨split, scheme, h⟩ := exists_of_bind_ok h
      cases split with
      | none => exact ofAuthority_wellFormed h
      | some split => exact ofAbsolute_wellFormed h ((utf8Len_of_splitScheme scheme).trans size)

end Gateway.Uri
