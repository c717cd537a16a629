import Mathlib.Data.List.TakeWhile
import Gateway.Proofs.Http.Target

/-! Absolute targets, written and read again. What is put together of an authority, a path and a query
that hold no mark out of place is read as just these. -/
namespace Gateway.Uri
variable {cs rest : List Char} {authority path s : String} {query : Option String} {u : Uri}

/-- A query has no mark that would end it. -/
def IsQuery (q : String) : Prop := ∀ c ∈ q.toList, isQueryChar c = true

/-- An authority as reading accepts it. -/
structure IsAuthority (a : String) : Prop where
  ne_empty : a ≠ ""
  unended : ∀ c ∈ a.toList, endsAuthority c = false
  complete : ∃ scan, a.toList.foldlM AuthorityScan.step {} = .ok scan ∧ scan.isComplete = true

/-- A query behind its question mark. -/
def queryChars : Option String → List Char
  | some q => '?' :: q.toList
  | none => []

lemma toList_pathQuery (path : String) (query : Option String) :
    (PathQuery.text ⟨path, query⟩).toList = path.toList ++ queryChars query := by
  cases query with
  | none => exact (List.append_nil _).symm
  | some q =>
    rw [PathQuery.text, String.toList_append, String.toList_append, List.append_assoc]
    rfl

lemma scanPathQuery_text (hp : IsPath path) (hq : ∀ q ∈ query, IsQuery q) :
    scanPathQuery (PathQuery.text ⟨path, query⟩).toList = .ok ⟨path, query⟩ := by
  have marks := hp.ne_mark
  have body : (path.toList ++ queryChars query).takeWhile (· ≠ '#') =
      path.toList ++ queryChars query := by
    rw [List.takeWhile_eq_self_iff]
    intro c hc
    rw [decide_eq_true_eq]
    rcases List.mem_append.mp hc with hc | hc
    · exact (marks c hc).1
    · cases query with
      | none => cases hc
      | some q =>
        rcases List.mem_cons.mp hc with rfl | hc
        · decide
        · rintro rfl
          exact absurd (hq q rfl _ hc) (by decide)
  have mark : queryChars query = [] ∨ ∃ more, queryChars query = '?' :: more := by
    cases query with
    | none => exact .inl rfl
    | some q => exact .inr ⟨q.toList, rfl⟩
  have front : (path.toList ++ queryChars query).takeWhile (· ≠ '?') = path.toList :=
    takeWhile_append_of_head (fun c hc => (marks c hc).2) mark
  have back : (path.toList ++ queryChars query).dropWhile (· ≠ '?') = queryChars query := by
    rw [List.dropWhile_append_of_pos (by simpa using fun c hc => (marks c hc).2)]
    rcases mark with e | ⟨more, e⟩ <;> rw [e] <;> simp
  have valid : path.toList.all isPathChar = true := List.all_eq_true.mpr hp.2
  rw [toList_pathQuery, scanPathQuery]
  dsimp only
  rw [body, front, back, valid, if_neg (mt String.toList_eq_nil_iff.mp hp.1), String.ofList_toList]
  cases query with
  | none => rfl
  | some q =>
    have chars : q.toList.all isQueryChar = true := List.all_eq_true.mpr (hq q rfl)
    simp [queryChars, chars]

/-- A text that starts at the root is read as a path. -/
lemma parse_of_rooted {text : String} (rooted : text.toList.head? = some '/') :
    parse text = if text.utf8ByteSize > maxLength then .error .tooLong else ofPathQuery text.toList := by
  obtain ⟨rest, chars⟩ := List.head?_eq_some_iff.mp rooted
  by_cases long : text.utf8ByteSize > maxLength
  · rw [parse, if_pos long, if_pos long]
  · rw [parse, if_neg long, if_neg long]
    split
    · next empty => exact absurd (chars.symm.trans empty) (List.cons_ne_nil _ _)
    · next star => exact absurd (List.cons.inj (chars.symm.trans star)).1 (by decide)
    · next same => rw [same]
    · next other same => exact absurd (List.cons.inj (chars.symm.trans same)).1.symm other
    · next other _ => exact absurd chars (other rest)

/-- A path from the root is read as it is. -/
lemma parse_path (hp : IsPath path) (slash : path.toList.head? = some '/')
    (size : path.utf8ByteSize ≤ maxLength) : parse path = .ok { path } := by
  have scanned : scanPathQuery (PathQuery.text ⟨path, none⟩).toList = .ok ⟨path, none⟩ :=
    scanPathQuery_text hp fun _ none => absurd none (Option.not_mem_none _)
  rw [PathQuery.text] at scanned
  rw [parse_of_rooted slash, if_neg (Nat.not_lt.mpr size), ofPathQuery, scanned]
  rfl

/-- What follows an authority begins with a mark that ends it. -/
lemma scanAuthority_append (ha : IsAuthority authority)
    (hr : ∀ c ∈ rest.head?, endsAuthority c = true) :
    scanAuthority (authority.toList ++ rest) = .ok (authority.toList, rest) := by
  have within : ∀ c ∈ authority.toList, (!endsAuthority c) = true := by
    intro c hc
    rw [ha.unended c hc]
    rfl
  have stops : rest.takeWhile (fun c => !endsAuthority c) = [] ∧
      rest.dropWhile (fun c => !endsAuthority c) = rest := by
    cases rest with
    | nil => exact ⟨rfl, rfl⟩
    | cons c more => simp [hr c rfl]
  have front : (authority.toList ++ rest).takeWhile (fun c => !endsAuthority c) =
      authority.toList := by
    rw [List.takeWhile_append_of_pos within, stops.1, List.append_nil]
  have back : (authority.toList ++ rest).dropWhile (fun c => !endsAuthority c) = rest := by
    rw [List.dropWhile_append_of_pos within, stops.2]
  have some_chars : authority.toList ++ rest ≠ [] :=
    List.append_ne_nil_of_left_ne_nil (mt String.toList_eq_nil_iff.mp ha.ne_empty) _
  obtain ⟨scan, run, complete⟩ := ha.complete
  rw [scanAuthority, if_neg some_chars]
  dsimp only
  rw [front, back, run]
  exact if_pos complete

/-- Written in full, a web address is read as it was. -/
theorem parse_text (ha : IsAuthority authority) (hp : IsPath path)
    (slash : path.toList.head? = some '/') (hq : ∀ q ∈ query, IsQuery q)
    (size : (text ⟨some "http", some authority, path, query⟩).utf8ByteSize ≤ maxLength) :
    parse (text ⟨some "http", some authority, path, query⟩) =
      .ok ⟨some "http", some authority, path, query⟩ := by
  have chars : (text ⟨some "http", some authority, path, query⟩).toList =
      "http://".toList ++ (authority.toList ++ (PathQuery.text ⟨path, query⟩).toList) := by
    rw [text, String.toList_append, String.toList_append, List.append_assoc]
    rfl
  have ends : ∀ c ∈ (PathQuery.text ⟨path, query⟩).toList.head?, endsAuthority c = true := by
    have first : (PathQuery.text ⟨path, query⟩).toList.head? = some '/' := by
      rw [toList_pathQuery, List.head?_append, slash]
      rfl
    intro c hc
    rw [first] at hc
    obtain rfl := Option.some.inj hc
    rfl
  have rest : ofAbsolute "http" (authority.toList ++ (PathQuery.text ⟨path, query⟩).toList) =
      .ok ⟨some "http", some authority, path, query⟩ := by
    rw [ofAbsolute, scanAuthority_append ha ends]
    dsimp only [bind, Except.bind]
    rw [if_neg (mt String.toList_eq_nil_iff.mp ha.ne_empty), scanPathQuery_text hp hq,
      String.ofList_toList]
    rfl
  rw [parse, if_neg (Nat.not_lt.mpr size), chars]
  exact rest

lemma scanAuthority_ok {front : List Char} (h : scanAuthority cs = .ok (front, rest))
    (ne : front ≠ []) :
    IsAuthority (String.ofList front) ∧ ∀ c ∈ rest.head?, endsAuthority c = true := by
  unfold scanAuthority at h
  split at h
  · cases h
  · dsimp only at h
    split at h
    · cases h
    · next scan run =>
      split at h
      · next complete =>
        obtain ⟨rfl, rfl⟩ := Prod.mk.inj (Except.ok.inj h)
        refine ⟨⟨mt (congrArg String.toList) ?_, fun c hc => ?_, scan, ?_, complete⟩, fun c hc => ?_⟩
        · rwa [String.toList_ofList]
        · rw [String.toList_ofList] at hc
          simpa using List.mem_takeWhile_imp hc
        · rwa [String.toList_ofList]
        · have stops := List.head?_dropWhile_not (fun c => !endsAuthority c) cs
          rw [Option.mem_def.mp hc] at stops
          simpa using stops
      · cases h

/-- A path after an authority is rooted: it begins with the mark that ends the authority, or it is
empty and shown as the root. -/
lemma head_of_scanPathQuery {p : PathQuery} (h : scanPathQuery cs = .ok p)
    (hc : ∀ c ∈ cs.head?, endsAuthority c = true) : p.path.toList.head? = some '/' := by
  rw [(scanPathQuery_path h).2]
  split
  · rfl
  · next ne =>
    obtain ⟨c, first⟩ := Option.ne_none_iff_exists'.mp (mt List.head?_eq_none_iff.mp ne)
    rw [String.toList_ofList, first]
    rw [List.head?_takeWhile, List.head?_takeWhile, Option.filter_eq_some_iff,
      Option.filter_eq_some_iff] at first
    obtain ⟨⟨first, number⟩, question⟩ := first
    have ends := hc c first
    simp only [endsAuthority, Bool.or_eq_true, decide_eq_true_eq] at ends number question
    rcases ends with (rfl | rfl) | rfl
    · rfl
    · exact absurd rfl question
    · exact absurd rfl number

/-- A target with a scheme has an authority and a path from the root. -/
theorem absolute_of_parse {scheme : String} (h : parse s = .ok u) (hs : u.scheme = some scheme) :
    (∃ authority, u.authority = some authority ∧ IsAuthority authority) ∧
      u.path.toList.head? = some '/' := by
  rcases parse_cases h with rfl | ⟨cs, h⟩ | ⟨cs, h⟩ | ⟨scheme, cs, h⟩
  · cases hs
  · obtain ⟨p, -, h⟩ := exists_of_bind_ok h
    obtain rfl := Except.ok.inj h
    cases hs
  · cases (ofAuthority_ok h).1.symm.trans hs
  · obtain ⟨⟨front, rest⟩, scanned, h⟩ := exists_of_bind_ok h
    dsimp only at h
    split at h
    · cases h
    · next ne =>
      obtain ⟨p, hp, h⟩ := exists_of_bind_ok h
      obtain rfl := Except.ok.inj h
      obtain ⟨authority, ends⟩ := scanAuthority_ok scanned ne
      exact ⟨⟨_, rfl, authority⟩, head_of_scanPathQuery hp ends⟩

end Gateway.Uri
