import Gateway.Exchange.Basic
import Gateway.Proofs.Http.Absolute
import Gateway.Proofs.Text.Printable

/-! The query that an exchange writes back into its target. -/
namespace Gateway

namespace Form

lemma isQueryChar_of_mem_encodeByte {b : UInt8} {c : Char} (h : c ∈ encodeByte b) :
    Uri.isQueryChar c = true := by
  have bytes : ∀ b, (encodeByte b).all Uri.isQueryChar = true := Bytes.forall_byte (by decide +kernel)
  exact List.all_eq_true.mp (bytes b) c h

lemma isQueryChar_of_mem_encodePair {p : String × String} {c : Char} (h : c ∈ encodePair p) :
    Uri.isQueryChar c = true := by
  have text {s : String} (h : c ∈ encodeText s) : Uri.isQueryChar c = true := by
    obtain ⟨b, -, hb⟩ := List.mem_flatMap.mp h
    exact isQueryChar_of_mem_encodeByte hb
  rcases List.mem_append.mp h with h | h
  · exact text h
  · rcases List.mem_cons.mp h with rfl | h
    · decide
    · exact text h

/-- Whatever is encoded can stand in a query. -/
theorem isQuery_encode (pairs : List (String × String)) : Uri.IsQuery (encode pairs) := by
  rw [Uri.IsQuery, encode, String.toList_ofList]
  have separator : ∀ c ∈ ['&'], Uri.isQueryChar c = true :=
    List.forall_mem_singleton.mpr (by decide)
  refine forall_mem_intercalate separator (List.forall_mem_map.mpr fun p _ c hc => ?_)
  exact isQueryChar_of_mem_encodePair hc

end Form

namespace Uri
variable {path : String} {query other : Option String} {p : PathQuery}

lemma queryChars_injective (h : queryChars query = queryChars other) : query = other := by
  cases query with
  | none =>
    cases other with
    | none => rfl
    | some q => cases h
  | some q =>
    cases other with
    | none => cases h
    | some r => rw [String.toList_injective (List.cons.inj h).2]

lemma parsePathQuery_text (hp : IsPath path) (hq : ∀ q ∈ query, IsQuery q)
    (h : parsePathQuery (PathQuery.text ⟨path, query⟩) = .ok p) : p = ⟨path, query⟩ := by
  unfold parsePathQuery at h
  split at h
  · cases h
  · split at h
    · cases h
    · split at h
      · next star =>
        obtain rfl := Except.ok.inj h
        rw [toList_pathQuery] at star
        rcases List.append_eq_singleton_iff.mp star with ⟨e, -⟩ | ⟨e, none⟩
        · exact absurd (String.toList_eq_nil_iff.mp e) hp.1
        · obtain rfl : path = "*" := String.toList_injective e
          have bare : query = .none := queryChars_injective none
          rw [bare]
      · split at h
        · exact (Except.ok.inj ((scanPathQuery_text hp hq).symm.trans h)).symm
        · cases h

end Uri

namespace Exchange
variable {x y : Exchange}

/-- The query parameters as they are written. -/
def writtenQuery (x : Exchange) : Option String :=
  if x.query = [] then none else some (Form.encode x.query)

lemma wantedPathQuery_eq (x : Exchange) :
    x.wantedPathQuery = PathQuery.text ⟨x.path, x.writtenQuery⟩ := by
  unfold wantedPathQuery writtenQuery
  split <;> rfl

lemma isQuery_writtenQuery (x : Exchange) : ∀ q ∈ x.writtenQuery, Uri.IsQuery q := by
  intro q hq
  unfold writtenQuery at hq
  split at hq
  · cases hq
  · obtain rfl := Option.some.inj hq
    exact Form.isQuery_encode x.query

/-- The query is rebuilt behind the path of the target, and only there. -/
theorem rebuildQuery_ok (hu : x.uri.IsRead) (h : x.rebuildQuery = .ok y) :
    x.uri.hasPath = true ∧ y = { x with uri := { x.uri with query := x.writtenQuery } } := by
  unfold rebuildQuery at h
  dsimp only at h
  split at h
  · next same =>
    obtain rfl := Except.ok.inj h
    rw [wantedPathQuery_eq, Uri.pathQueryText?] at same
    split at same
    · next has =>
      have chars := congrArg String.toList (Option.some.inj same)
      rw [Uri.toList_pathQuery, Uri.toList_pathQuery] at chars
      rw [← Uri.queryChars_injective (List.append_cancel_left chars)]
      exact ⟨has, rfl⟩
    · cases same
  · split at h
    · cases h
    · next p parsed =>
      split at h
      · cases h
      · next v placed =>
        obtain rfl := Except.ok.inj h
        unfold Uri.withPathQuery at placed
        split at placed
        · next has =>
          obtain rfl := Except.ok.inj placed
          rw [wantedPathQuery_eq] at parsed
          rw [Uri.parsePathQuery_text (hu has) x.isQuery_writtenQuery parsed]
          exact ⟨has, rfl⟩
        · cases placed

lemma target_of_rebuildQuery (hu : x.uri.IsRead) (h : x.rebuildQuery = .ok y) :
    y.uri.target = x.uri.target := by
  rw [(rebuildQuery_ok hu h).2]
  rfl

end Exchange
end Gateway
