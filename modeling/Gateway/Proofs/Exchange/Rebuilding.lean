import Gateway.Proofs.Exchange.Edits
import Gateway.Proofs.Exchange.Query
import Gateway.Proofs.Http.WellFormed
import Gateway.Proofs.Job.Handler
import Gateway.Proofs.Text.Form

/-! Query parameters written into the target and read again. Within the length of a target nothing of
them is lost, and nothing else of the exchange changes. -/
namespace Gateway

namespace Uri
variable {path s : String} {query : Option String} {p : PathQuery} {u : Uri}

lemma size_of_parsePathQuery (h : parsePathQuery s = .ok p) : s.utf8ByteSize ≤ maxLength := by
  unfold parsePathQuery at h
  split at h
  · cases h
  · split at h
    · cases h
    · next short => exact Nat.not_lt.mp short

/-- A path from the root is read with its query, unless they are too long. -/
lemma parsePathQuery_eq (hp : IsPath path) (rooted : path.toList.head? = some '/')
    (hq : ∀ q ∈ query, IsQuery q) : parsePathQuery (PathQuery.text ⟨path, query⟩) =
      if (PathQuery.text ⟨path, query⟩).utf8ByteSize ≤ maxLength then .ok ⟨path, query⟩
      else .error .tooLong := by
  obtain ⟨more, chars⟩ : ∃ more, (PathQuery.text ⟨path, query⟩).toList = '/' :: more := by
    obtain ⟨rest, slash⟩ := List.head?_eq_some_iff.mp rooted
    exact ⟨rest ++ queryChars query, by rw [toList_pathQuery, slash, List.cons_append]⟩
  have scanned := scanPathQuery_text hp hq
  rw [chars] at scanned
  unfold parsePathQuery
  rw [chars]
  by_cases size : (PathQuery.text ⟨path, query⟩).utf8ByteSize ≤ maxLength
  · simp [Nat.not_lt.mpr size, size, scanned, endsAuthority]
  · simp [Nat.not_le.mp size, size]

lemma IsWellFormed.hasPath (hu : u.IsWellFormed) (rooted : u.path.toList.head? = some '/') :
    u.hasPath = true := by
  by_contra no
  rw [hu.bare (Bool.eq_false_iff.mpr no)] at rooted
  cases rooted

end Uri

namespace Exchange
variable {x y : Exchange}

/-- A target whose query was rebuilt is not too long, however it came about. -/
lemma size_of_rebuildQuery (hu : x.uri.IsWellFormed) (h : x.rebuildQuery = .ok y) :
    x.wantedPathQuery.utf8ByteSize ≤ Uri.maxLength := by
  unfold rebuildQuery at h
  dsimp only at h
  split at h
  · next same => exact hu.size _ same
  · split at h
    · cases h
    · next p parsed => exact Uri.size_of_parsePathQuery parsed

/-- Nothing that can be done to an exchange spoils its target. -/
theorem Offers.isWellFormed (h : x.Offers y) (hu : x.uri.IsWellFormed) : y.uri.IsWellFormed := by
  cases h with
  | edit h =>
    cases h with
    | rebuilt h =>
      have size := size_of_rebuildQuery hu h
      obtain ⟨has, rfl⟩ := rebuildQuery_ok hu.read h
      refine ⟨hu.read, fun text ht => ?_, hu.bare⟩
      rw [wantedPathQuery_eq] at size
      have shown := (if_pos has).symm.trans ht
      exact Option.some.inj shown ▸ size
    | read =>
      obtain ⟨c, read⟩ := x.readContent_eq
      rw [read]
      exact hu
    | released =>
      unfold releaseContent
      split <;> exact hu
    | _ => exact hu
  | _ => exact hu

/-- A path from the root takes the query as it is written, unless they are too long together. -/
theorem rebuildQuery_of_rooted (hu : x.uri.IsWellFormed) (rooted : x.path.toList.head? = some '/') :
    x.rebuildQuery = if x.wantedPathQuery.utf8ByteSize ≤ Uri.maxLength then
        .ok { x with uri := { x.uri with query := x.writtenQuery } }
      else .error (.internal "invalid query string: uri too long") := by
  have has := hu.hasPath rooted
  have parsed : Uri.parsePathQuery x.wantedPathQuery =
      if x.wantedPathQuery.utf8ByteSize ≤ Uri.maxLength then .ok ⟨x.path, x.writtenQuery⟩
      else .error .tooLong := by
    rw [wantedPathQuery_eq]
    exact Uri.parsePathQuery_eq (hu.read has) rooted x.isQuery_writtenQuery
  -- A success may come without any parsing, when the target is up to date. Then its own size tells.
  cases rebuilt : x.rebuildQuery with
  | ok y => rw [if_pos (size_of_rebuildQuery hu rebuilt), (rebuildQuery_ok hu.read rebuilt).2]
  | error f =>
    unfold rebuildQuery at rebuilt
    dsimp only at rebuilt
    rw [parsed] at rebuilt
    split at rebuilt
    · cases rebuilt
    · by_cases size : x.wantedPathQuery.utf8ByteSize ≤ Uri.maxLength
      · simp [size, Uri.withPathQuery, has] at rebuilt
      · rw [if_neg size] at rebuilt ⊢
        exact rebuilt.symm

/-- What is written into the target is what was there to write. -/
lemma rebuildQuery_rebuilt (has : x.uri.hasPath = true) :
    let y := { x with uri := { x.uri with query := x.writtenQuery } }
    y.rebuildQuery = .ok y := by
  intro y
  have same : y.uri.pathQueryText? = some y.wantedPathQuery := by
    rw [wantedPathQuery_eq, Uri.pathQueryText?]
    exact if_pos has
  unfold rebuildQuery
  exact if_pos same

lemma writtenQuery_eq_none_iff : x.writtenQuery = none ↔ x.query = [] := by
  unfold writtenQuery
  split <;> simp_all

lemma decode_of_mem_writtenQuery {q : String} (h : q ∈ x.writtenQuery) :
    Form.decode (Bytes.ofText q) = x.query := by
  unfold writtenQuery at h
  split at h
  · cases h
  · obtain rfl := Option.some.inj h
    exact Form.decode_encode x.query

/-- A request for the target comes with the parameters that were written into it. -/
lemma query_ofRequest_of_written {r : Request} (h : r.uri.query = x.writtenQuery) (limits : ContentLimits) :
    (ofRequest r limits).query = x.query := by
  unfold ofRequest
  dsimp only
  rw [h]
  cases written : x.writtenQuery with
  | none => exact (writtenQuery_eq_none_iff.mp written).symm
  | some q => exact decode_of_mem_writtenQuery written

lemma wantedPathQuery_eq_append (x : Exchange) :
    x.wantedPathQuery = x.path ++ if x.query = [] then "" else "?" ++ Form.encode x.query := by
  unfold wantedPathQuery
  split
  · exact String.append_empty.symm
  · exact String.append_assoc

/-- A failure to rebuild the query leaves the exchange. -/
lemma runs_rebuildQuery_of_error {f : Failure} (h : x.rebuildQuery = .error f) {t : Trace}
    {o : Except Failure Unit} : Handler.rebuildQuery.Runs x t o y ↔ t = [] ∧ o = .error f ∧ y = x := by
  have nothing : Trace.releases (dropped x x) = [] := congrArg Trace.releases (dropped_eq_nil rfl)
  rw [Handler.rebuildQuery, Handler.runs_attempt_iff]
  simp only [h, nothing]
  exact and_left_comm

/-- Query parameters make a round trip. With a path from the root, whatever exchange that came of a
request and whatever pairs it has: if the path and the written query fit into a target, the query is
rebuilt, a request for the new target comes with just these pairs, nothing else of the exchange is
changed, and to rebuild it again changes nothing. If they do not fit, this is an internal failure, and the
exchange is left as it was. -/
theorem rebuildQuery_round_trip {text : String} {r : Request} {limits : ContentLimits}
    (read : Uri.parse text = .ok r.uri) (way : Relation.ReflTransGen Offers (ofRequest r limits) x)
    (rooted : x.path.toList.head? = some '/') (pairs : List (String × String)) :
    let y := { x with query := pairs }
    let size := (x.path ++ if pairs = [] then "" else "?" ++ Form.encode pairs).utf8ByteSize
    (size ≤ 65534 → ∃ query, (query = none ↔ pairs = []) ∧
      let z := { y with uri := { x.uri with query := query } }
      y.rebuildQuery = .ok z ∧ z.rebuildQuery = .ok z ∧
        (∀ q ∈ query, Form.decode (Bytes.ofText q) = pairs) ∧
        ∀ (s : Request) (l : ContentLimits), s.uri = z.uri → (ofRequest s l).query = pairs) ∧
    (65534 < size → y.rebuildQuery = .error (.internal "invalid query string: uri too long") ∧
      ∀ t o z, Handler.rebuildQuery.Runs y t o z ↔
        t = [] ∧ o = .error (.internal "invalid query string: uri too long") ∧ z = y) := by
  intro y size
  have formed : x.uri.IsWellFormed := way.rec (Uri.isWellFormed_of_parse read) fun _ h hu => h.isWellFormed hu
  have wanted : y.wantedPathQuery.utf8ByteSize = size := congrArg _ (wantedPathQuery_eq_append y)
  have rebuilt : y.rebuildQuery = _ := rebuildQuery_of_rooted formed rooted
  rw [wanted] at rebuilt
  constructor
  · intro (fits : size ≤ Uri.maxLength)
    rw [if_pos fits] at rebuilt
    exact ⟨y.writtenQuery, writtenQuery_eq_none_iff, rebuilt, rebuildQuery_rebuilt (formed.hasPath rooted),
      fun q hq => decode_of_mem_writtenQuery hq, fun s l same =>
        query_ofRequest_of_written (congrArg Uri.query same) l⟩
  · intro (long : Uri.maxLength < size)
    rw [if_neg (Nat.not_le.mpr long)] at rebuilt
    exact ⟨rebuilt, fun _ _ _ => runs_rebuildQuery_of_error rebuilt⟩

/-- Marks, blanks and empty names come back as they were. -/
theorem rebuildQuery_round_trip_of_marks :
    let pairs := [("a+b", "50% & é="), ("", ""), ("filter", "x y")]
    let x := ofRequest { uri := { path := "/api", query := some "page=2" } } {}
    Uri.parse "/api?page=2" = .ok x.uri ∧ x.query = [("page", "2")] ∧ x.path.toList.head? = some '/' ∧
      ∃ q, { x with query := pairs }.rebuildQuery =
          .ok { x with query := pairs, uri := { x.uri with query := some q } } ∧
        Form.decode (Bytes.ofText q) = pairs := by
  intro pairs x
  have read : Uri.parse "/api?page=2" = .ok x.uri := by decide
  have short : (x.path ++ if pairs = [] then "" else "?" ++ Form.encode pairs).utf8ByteSize ≤ 65534 := by
    decide +kernel
  obtain ⟨query, none, rebuilt, -, decoded, -⟩ :=
    (rebuildQuery_round_trip (x := x) read .refl (by decide) pairs).1 short
  obtain ⟨q, rfl⟩ := Option.ne_none_iff_exists'.mp (mt none.mp (List.cons_ne_nil _ _))
  exact ⟨read, by decide +kernel, by decide, q, rebuilt, decoded q rfl⟩

end Exchange
end Gateway
