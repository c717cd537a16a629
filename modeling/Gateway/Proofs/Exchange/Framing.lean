import Gateway.Proofs.Exchange.Buffering
import Gateway.Proofs.Text.Printable

/-! What the headers say of the body while a response is changed on its way to the client. Its size is
given up with some bodies only, and its encoding never. -/
namespace Gateway
namespace Response

/-- The ways to change a response. -/
inductive Change where
  | status (status : Status)
  | content (content : Bytes) (type : String)
  | json (status : Status) (value : Json)
  | failure (failure : Failure)
  | stream (body : Body)
  /-- Read into memory, whether or not that succeeds. -/
  | buffer (limits : ContentLimits)

namespace Change

def apply (r : Response) : Change → Response
  | status s => { r with status := s }
  | content bytes type => r.setContent bytes type
  | json s value => r.setJson s value
  | failure f => r.setFailure f
  | stream body => r.setStream body
  | buffer limits => (r.buffer limits).1

/-- No size is declared any more. -/
def dropsSize (r : Response) : Change → Bool
  | content .. | json .. | failure _ => true
  | buffer limits => r.isReadable limits && (r.body matches .stream _)
  | status _ | stream _ => false

/-- The body is replaced or lost, and nothing is done about its size. -/
def mislaysSize (r : Response) : Change → Bool
  | stream _ => true
  | buffer limits => !r.isReadable limits
  | _ => false

/-- The bytes may become others. Those in memory are lost when they are read into memory again. -/
def altersBytes (r : Response) : Change → Bool
  | status _ => false
  | buffer limits => !r.isReadable limits || r.content?.any (· ≠ [])
  | _ => true

end Change

def after (r : Response) (cs : List Change) : Response := cs.foldl Change.apply r

/-- One of the changes is of this kind, on the response as it is by then. -/
def meets (kind : Response → Change → Bool) : Response → List Change → Bool
  | _, [] => false
  | r, c :: cs => kind r c || (c.apply r).meets kind cs

/-- Each size that is declared is the one of the body. -/
def SizeIsRight (r : Response) : Prop :=
  ∀ v ∈ r.headers.values "content-length",
    (Bytes.visibleText? v).bind Exchange.sizeOfText? = some r.body.bytes.length

/-- The headers fit the body, of which the one that was sent first is `own`: the size is right, and an
encoding is named for these bytes only. -/
structure Describes (own : Bytes) (r : Response) : Prop where
  size : r.SizeIsRight
  encoding : r.headers.values "content-encoding" ≠ [] → r.body.bytes = own

variable {r : Response} {b : Body} {c : Change} {cs : List Change} {name : String}
  {limits : ContentLimits}

section Step

lemma Change.values_apply (other : name ∉ framing) :
    (c.apply r).headers.values name = r.headers.values name := by
  cases c with
  | content bytes type =>
    simp only [framing, List.mem_cons, List.not_mem_nil, or_false, not_or] at other
    simp [apply, setContent, Headers.insertText, Headers.values_insert_of_ne _ (Ne.symm other.2),
      Headers.values_remove_of_ne _ (Ne.symm other.1)]
  | json s value => exact values_setJson s value other
  | failure f => exact values_setJson f.status f.description other
  | buffer limits => exact values_buffer other
  | _ => rfl

lemma values_length_setContent (bytes : Bytes) (type : String) :
    (r.setContent bytes type).headers.values "content-length" = [] := by
  simp [setContent, Headers.insertText, Headers.values_insert_of_ne]

/-- A stream that can be read is left with its bytes and without its size. -/
lemma buffer_readable (sent : r.body = .stream b) (readable : r.isReadable limits = true) :
    (r.buffer limits).1 =
      { r with headers := r.headers.remove "content-length", body := .full b.bytes } := by
  simp only [isReadable, sent, Bool.and_eq_true, decide_eq_true_eq, Option.isNone_iff_eq_none] at readable
  obtain ⟨content, read, bytes⟩ := Body.buffer_within readable.1 readable.2
  rw [buffer_stream sent read, bytes]

/-- Of one that cannot, nothing is left, and the headers stay. -/
lemma buffer_unreadable (unreadable : r.isReadable limits = false) :
    (r.buffer limits).1 = { r with body := .empty } := by
  have failed : (r.buffer limits).2 ≠ .ok () := fun ok => by
    simp [buffer_ok_iff.mp ok] at unreadable
  unfold buffer at failed ⊢
  split at failed
  · split at failed
    · exact absurd rfl failed
    · rfl
  · exact absurd rfl failed

lemma Change.values_length_apply : (c.apply r).headers.values "content-length" =
    if c.dropsSize r then [] else r.headers.values "content-length" := by
  cases c with
  | buffer limits =>
    cases body : r.body with
    | stream b =>
      cases readable : r.isReadable limits with
      | true => simp [apply, dropsSize, buffer_readable body readable, readable, body]
      | false => simp [apply, dropsSize, buffer_unreadable readable, readable]
    | _ => simp [apply, dropsSize, buffer_of_ne_stream, body]
  | status s => simp [apply, dropsSize]
  | stream b => simp [apply, dropsSize, setStream]
  | _ => exact values_length_setContent _ _

/-- Without any of this the stream that was sent is still there. -/
lemma Change.body_apply (sent : r.body = .stream b) (keeps : c.dropsSize r = false)
    (minds : c.mislaysSize r = false) : (c.apply r).body = .stream b := by
  -- Of a stream, reading either drops the size or fails, so there is only the status left to change.
  cases c with
  | status s => exact sent
  | _ => simp_all [dropsSize, mislaysSize]

lemma Change.bytes_apply (same : c.altersBytes r = false) : (c.apply r).body.bytes = r.body.bytes := by
  cases c with
  | status s => rfl
  | buffer limits =>
    simp only [altersBytes, Bool.or_eq_false_iff, Bool.not_eq_false'] at same
    obtain ⟨readable, small⟩ := same
    cases body : r.body with
    | stream b =>
      rw [apply, buffer_readable body readable, ResponseBody.bytes_full]
      rfl
    | full content =>
      have nothing : content = [] := by simpa [content?, body] using small
      simp [apply, buffer_of_ne_stream, body, nothing]
      rfl
    | empty => simp [apply, buffer_of_ne_stream, body]
  | _ => simp [altersBytes] at same

end Step

section Run

lemma after_cons : r.after (c :: cs) = (c.apply r).after cs := rfl

lemma values_after (other : name ∉ framing) :
    (r.after cs).headers.values name = r.headers.values name := by
  induction cs generalizing r with
  | nil => rfl
  | cons c cs ih => rw [after_cons, ih, Change.values_apply other]

/-- A size that is given up is not declared again. -/
lemma values_length_after : (r.after cs).headers.values "content-length" =
    if r.meets Change.dropsSize cs then [] else r.headers.values "content-length" := by
  induction cs generalizing r with
  | nil => simp [after, meets]
  | cons c cs ih =>
    rw [after_cons, ih, Change.values_length_apply]
    cases dropped : c.dropsSize r <;> simp [meets, dropped]

lemma body_after (sent : r.body = .stream b) (keeps : r.meets Change.dropsSize cs = false)
    (minds : r.meets Change.mislaysSize cs = false) : (r.after cs).body = .stream b := by
  induction cs generalizing r with
  | nil => exact sent
  | cons c cs ih =>
    simp only [meets, Bool.or_eq_false_iff] at keeps minds
    exact ih (Change.body_apply sent keeps.1 minds.1) keeps.2 minds.2

lemma bytes_after (same : r.meets Change.altersBytes cs = false) :
    (r.after cs).body.bytes = r.body.bytes := by
  induction cs generalizing r with
  | nil => rfl
  | cons c cs ih =>
    simp only [meets, Bool.or_eq_false_iff] at same
    rw [after_cons, ih same.2, Change.bytes_apply same.1]

end Run

/-- The size is right iff there was none, it is declared no more, or it is by chance the same. -/
lemma sizeIsRight_after_iff (sent : r.body = .stream b) (right : r.SizeIsRight) :
    (r.after cs).SizeIsRight ↔ r.headers.values "content-length" = [] ∨
      r.meets Change.dropsSize cs = true ∨ (r.after cs).body.bytes.length = b.bytes.length := by
  have bytes : r.body.bytes = b.bytes := by rw [sent]; rfl
  unfold SizeIsRight at right ⊢
  rw [bytes] at right
  rw [values_length_after]
  cases dropped : r.meets Change.dropsSize cs with
  | true => simp
  | false =>
    simp only [Bool.false_eq_true, if_false, false_or]
    constructor
    · intro declared
      cases values : r.headers.values "content-length" with
      | nil => exact .inl rfl
      | cons v _ =>
        have first : v ∈ r.headers.values "content-length" := by simp [values]
        exact .inr (Option.some.inj ((declared v first).symm.trans (right v first)))
    · rintro (absent | same) v hv
      · simp [absent] at hv
      · rw [right v hv, same]

/-- A response that is sent as a stream, and declares no size or the right one, names its encoding to the
end, whatever is done to it, and its size until a change takes that away. So its headers fit the body iff
there was no size, it was taken away or is by chance the same, and there was no encoding or the bytes are
those that were sent. The size is right if no other stream is set and all reading into memory succeeds.
Both are if nothing is done but to change the status and to read a stream into memory within the limit. -/
theorem describes_after_iff (sent : r.body = .stream b) (right : r.SizeIsRight) (cs : List Change) :
    (r.after cs).headers.values "content-encoding" = r.headers.values "content-encoding" ∧
    (r.after cs).headers.values "content-length" =
      (if r.meets Change.dropsSize cs then [] else r.headers.values "content-length") ∧
    ((r.after cs).Describes b.bytes ↔
      (r.headers.values "content-length" = [] ∨ r.meets Change.dropsSize cs = true ∨
        (r.after cs).body.bytes.length = b.bytes.length) ∧
      (r.headers.values "content-encoding" = [] ∨ (r.after cs).body.bytes = b.bytes)) ∧
    (r.meets Change.mislaysSize cs = false → (r.after cs).SizeIsRight) ∧
    (r.meets Change.altersBytes cs = false → (r.after cs).Describes b.bytes) := by
  have encoding : (r.after cs).headers.values "content-encoding" = r.headers.values "content-encoding" :=
    values_after (by decide)
  have size : (r.after cs).SizeIsRight ↔ _ := sizeIsRight_after_iff sent right
  refine ⟨encoding, values_length_after, ⟨fun h => ?_, fun h => ?_⟩, fun minds => ?_, fun same => ?_⟩
  · exact ⟨size.mp h.size, or_iff_not_imp_left.mpr (encoding ▸ h.encoding)⟩
  · exact ⟨size.mpr h.1, encoding ▸ or_iff_not_imp_left.mp h.2⟩
  · cases dropped : r.meets Change.dropsSize cs with
    | true => exact size.mpr (.inr (.inl dropped))
    | false =>
      have still : (r.after cs).body = .stream b := body_after sent dropped minds
      exact size.mpr (.inr (.inr (by rw [still]; rfl)))
  · have kept : (r.after cs).body.bytes = b.bytes := (bytes_after same).trans (by rw [sent]; rfl)
    exact ⟨size.mpr (.inr (.inr (congrArg _ kept))), fun _ => kept⟩

/-- What the client is told about a failure is an object. -/
lemma head?_bytes_description (f : Failure) : f.description.bytes.head? = some 0x7B := by
  rw [Failure.description, errorDescription, Json.object, Json.bytes, Bytes.ofText_eq_flatMap, Json.text,
    String.toList_ofList, Json.chars]
  rfl

/-- A compressed answer that is too large for the interceptors: the error that replaces it is said to be
compressed as well. A stream that replaces it is given the size that it had. -/
theorem describes_after_iff_gzip :
    let b := Body.stream [Bytes.ofText "hello"]
    let r : Response := {
      headers := ⟨[("content-length", Bytes.ofText "5"), ("content-encoding", Bytes.ofText "gzip")]⟩
      body := .stream b }
    r.SizeIsRight ∧ (r.after [.status .ok, .buffer { max := 5 }]).Describes b.bytes ∧
      ¬(r.after [.buffer { max := 4 }, .failure (.contentTooLarge 4)]).Describes b.bytes ∧
      ¬(r.after [.stream (Body.stream [Bytes.ofText "hi"])]).Describes b.bytes := by
  intro b r
  have right : r.SizeIsRight := by
    unfold SizeIsRight
    decide +kernel
  have law := describes_after_iff (r := r) (b := b) rfl right
  refine ⟨right, (law _).2.2.2.2 (by decide), fun h => ?_, fun h => ?_⟩
  · rcases ((law _).2.2.1.mp h).2 with absent | same
    · exact absurd absent (by decide)
    · have error : (r.after [.buffer { max := 4 }, .failure (.contentTooLarge 4)]).body.bytes =
          (Failure.contentTooLarge 4).description.bytes := ResponseBody.bytes_full _
      have first := (congrArg List.head? (error.symm.trans same)).symm.trans (head?_bytes_description _)
      exact absurd first (by decide +kernel)
  · have same := ((law _).2.2.1.mp h).1
    revert same
    decide +kernel

end Response
end Gateway
