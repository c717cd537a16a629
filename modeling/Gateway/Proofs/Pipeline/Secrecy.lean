import Gateway.Proofs.Pipeline.Accounting
import Gateway.Security.Chain

/-! What the request log keeps to itself. Header values are shown from level two on, all but those of the hidden
headers, so a secret is kept exactly where it stands in a hidden header. -/
namespace Gateway

/-- The same names in the same order, with the same values but for some names. -/
def Headers.DifferOnlyIn (names : List String) (h k : Headers) : Prop :=
  List.Forall₂ (fun d e => e.1 = d.1 ∧ (d.1 ∈ names ∨ e.2 = d.2)) h.entries k.entries

namespace Exchange

/-- The exchange with other headers of its request and its response. -/
def withHeaders (x : Exchange) (request response : Headers) : Exchange :=
  { x with headers := request, response := { x.response with headers := response } }

/-- The exchanges differ at most in the values of some headers of the request and the response. -/
structure DifferOnlyIn (names : List String) (x y : Exchange) : Prop where
  rest : y = x.withHeaders y.headers y.response.headers
  request : x.headers.DifferOnlyIn names y.headers
  response : x.response.headers.DifferOnlyIn names y.response.headers

end Exchange

namespace RequestLog
variable {level : Nat} {x y : Exchange} {h k h' k' : Headers} {name : String} {v w : Bytes}

/-- The same is written about both exchanges when they are complete. -/
def Alike (level : Nat) (x y : Exchange) : Prop :=
  ∀ t, (∃ z, (stage level).complete.Runs x t () z) ↔ ∃ z, (stage level).complete.Runs y t () z

lemma emits_injective : Function.Injective Trace.emits :=
  List.map_injective_iff.mpr fun _ _ same => by cases same; rfl

lemma alike_iff : Alike level x y ↔ account level y = account level x := by
  have written (x : Exchange) (t : Trace) : (∃ z, (stage level).complete.Runs x t () z) ↔
      t = Trace.emits (account level x) := by
    simp [Stage.runs_complete_requestLog_iff]
  simp only [Alike, written]
  constructor
  · intro same
    exact emits_injective ((same _).mpr rfl)
  · intro same t
    rw [same]

lemma record_eq_iff : record level (x.withHeaders h' k') = record level (x.withHeaders h k) ↔
    level < 2 ∨ (dump h' = dump h ∧ dump k' = dump k) := by
  constructor
  · intro same
    by_cases shows : level ≥ 2
    · have request := congrArg RequestRecord.requestHeaders same
      have response := congrArg RequestRecord.responseHeaders same
      simp only [record, if_pos shows] at request response
      exact .inr ⟨Option.some.inj request, Option.some.inj response⟩
    · exact .inl (Nat.lt_of_not_le shows)
  · rintro (low | ⟨request, response⟩)
    · have hides : ¬level ≥ 2 := Nat.not_le_of_lt low
      simp only [record, if_neg hides]
      rfl
    · unfold record
      dsimp only [Exchange.withHeaders]
      rw [request, response]
      rfl

/-- Exchanges with other headers are told apart exactly if headers are shown and do not look the same. -/
theorem alike_withHeaders_iff : Alike level (x.withHeaders h k) (x.withHeaders h' k') ↔
    level < 2 ∨ (dump h' = dump h ∧ dump k' = dump k) := by
  have name : pipelineName (x.withHeaders h' k') = pipelineName (x.withHeaders h k) := rfl
  have status : (x.withHeaders h' k').response.status = (x.withHeaders h k).response.status := rfl
  rw [alike_iff, account, account, name, status]
  by_cases logs : 1 ≤ level
  · rw [if_pos logs, if_pos logs, ← record_eq_iff (x := x), List.cons_eq_cons, List.cons_eq_cons]
    simp
  · rw [if_neg logs, if_neg logs]
    exact iff_of_true rfl (.inl (by omega))

/-- A value as it is shown where it is not hidden. -/
def plain (value : Bytes) : String := (Bytes.visibleText? value).getD binaryText

lemma shown_eq_iff : shown name w = shown name v ↔ name ∈ hiddenHeaders ∨ plain w = plain v := by
  unfold shown plain
  split
  · next hidden => simp [hidden]
  · next other => simp [other]

lemma dump_congr (same : h.DifferOnlyIn hiddenHeaders k) : dump k = dump h := by
  obtain ⟨l⟩ := h
  obtain ⟨m⟩ := k
  have entries : m.map (fun e => e.1 ++ ": " ++ shown e.1 e.2) =
      l.map fun e => e.1 ++ ": " ++ shown e.1 e.2 := by
    change List.Forall₂ _ l m at same
    induction same with
    | nil => rfl
    | cons head _ ih =>
      obtain ⟨name, value⟩ := head
      have text := shown_eq_iff.mpr (value.imp_right (congrArg plain))
      rw [List.map_cons, List.map_cons, ih, name, text]
  exact congrArg (String.intercalate "; ") entries

/-- A sequence of texts with one of them replaced. -/
lemma intercalate_replaced_iff {sep s t : String} {before after : List String} :
    sep.intercalate (before ++ t :: after) = sep.intercalate (before ++ s :: after) ↔ t = s := by
  induction before with
  | nil =>
    cases after with
    | nil => simp
    | cons a after =>
      rw [List.nil_append, List.nil_append, String.intercalate_cons_cons, String.intercalate_cons_cons,
        String.append_left_inj, String.append_left_inj]
  | cons b before ih =>
    rw [List.cons_append, List.cons_append, String.intercalate_cons_of_ne_nil (by simp),
      String.intercalate_cons_of_ne_nil (by simp), String.append_right_inj, ih]

lemma dump_replaced_iff {before after : List (String × Bytes)} :
    dump ⟨before ++ (name, w) :: after⟩ = dump ⟨before ++ (name, v) :: after⟩ ↔
      name ∈ hiddenHeaders ∨ plain w = plain v := by
  unfold dump
  simp only [List.map_append, List.map_cons, intercalate_replaced_iff, String.append_right_inj]
  exact shown_eq_iff

/-- The log keeps the values of some headers to itself exactly if it shows no headers or all of these are
hidden. What it shows of any other header is its value: exchanges that differ in one value, of the
request or of the response, are told apart exactly if the value looks different. -/
theorem log_secret_iff (level : Nat) (names : List String) :
    ((∀ x y : Exchange, x.DifferOnlyIn names y → Alike level x y) ↔
        level < 2 ∨ ∀ name ∈ names, name ∈ hiddenHeaders) ∧
      ∀ (x : Exchange) (before after : List (String × Bytes)) (other : Headers) (name : String)
        (v w : Bytes),
        let headers (value : Bytes) : Headers := ⟨before ++ (name, value) :: after⟩
        let same := level < 2 ∨ name ∈ hiddenHeaders ∨ plain w = plain v
        (Alike level (x.withHeaders (headers v) other) (x.withHeaders (headers w) other) ↔ same) ∧
          (Alike level (x.withHeaders other (headers v)) (x.withHeaders other (headers w)) ↔ same) := by
  have replaced (x : Exchange) (before after : List (String × Bytes)) (other : Headers) (name : String)
      (v w : Bytes) : Alike level (x.withHeaders ⟨before ++ (name, v) :: after⟩ other)
        (x.withHeaders ⟨before ++ (name, w) :: after⟩ other) ↔
          level < 2 ∨ name ∈ hiddenHeaders ∨ plain w = plain v := by
    rw [alike_withHeaders_iff, dump_replaced_iff, and_iff_left rfl]
  refine ⟨⟨fun kept => ?_, fun hidden x y differ => ?_⟩, fun x before after other name v w =>
    ⟨replaced x before after other name v w, ?_⟩⟩
  · -- A name that is not hidden tells apart two exchanges that differ in one value of it.
    by_contra shown
    obtain ⟨shows, exposed⟩ := not_or.mp shown
    obtain ⟨name, mem, plainly⟩ := by simpa using exposed
    let x := Exchange.ofRequest {} {}
    have differ : (x.withHeaders ⟨[(name, [97])]⟩ {}).DifferOnlyIn names
        (x.withHeaders ⟨[(name, [98])]⟩ {}) := ⟨rfl, .cons ⟨rfl, .inl mem⟩ .nil, .nil⟩
    rcases (replaced x [] [] {} name [97] [98]).mp (kept _ _ differ) with low | hidden | same
    · exact shows low
    · exact plainly hidden
    · exact absurd same (by decide)
  · have whole : Alike level (x.withHeaders x.headers x.response.headers)
        (x.withHeaders y.headers y.response.headers) := by
      refine alike_withHeaders_iff.mpr (hidden.imp_right fun all => ?_)
      have mono {h k : Headers} (same : h.DifferOnlyIn names k) : h.DifferOnlyIn hiddenHeaders k :=
        List.Forall₂.imp (fun d e same => ⟨same.1, same.2.imp_left (all d.1)⟩) same
      exact ⟨dump_congr (mono differ.request), dump_congr (mono differ.response)⟩
    rw [differ.rest]
    exact whole
  · rw [alike_withHeaders_iff, dump_replaced_iff, and_iff_right rfl]

/-- The token that the gateway issues stands for its owner, and the log shows it. -/
theorem log_secret_iff_auth_token :
    let credentials := ["authorization", "proxy-authorization", "cookie", "set-cookie", "auth-token"]
    let answer (token : String) : Exchange :=
      (Exchange.ofRequest {} {}).withHeaders {} (SecurityChain.tokenHeaders ⟨token, 60⟩ {})
    (answer "a").DifferOnlyIn credentials (answer "b") ∧ ¬Alike 2 (answer "a") (answer "b") ∧
      credentials.filter (· ∉ hiddenHeaders) = ["proxy-authorization", "auth-token"] ∧
        ∀ x y : Exchange, x.DifferOnlyIn hiddenHeaders y → Alike 2 x y := by
  intro credentials answer
  let headers (value : Bytes) : Headers := ⟨[("auth-token", value), ("auth-token-valid-until", [54, 48])]⟩
  have first : SecurityChain.tokenHeaders ⟨"a", 60⟩ {} = headers [97] := rfl
  have second : SecurityChain.tokenHeaders ⟨"b", 60⟩ {} = headers [98] := rfl
  obtain ⟨secrets, one⟩ := log_secret_iff 2 hiddenHeaders
  have told := (one (.ofRequest {} {}) [] [("auth-token-valid-until", [54, 48])] {} "auth-token" [97] [98]).2
  dsimp only [answer]
  rw [first, second]
  refine ⟨⟨rfl, .nil, .cons ⟨rfl, .inl (by decide)⟩ (.cons ⟨rfl, .inr rfl⟩ .nil)⟩, fun same => ?_,
    by decide, secrets.mpr (.inr fun _ hidden => hidden)⟩
  exact absurd (told.mp same) (by decide)

end RequestLog
end Gateway
