import Gateway.Exchange.Basic
import Gateway.Proofs.Exchange.Content

/-! Reading a response into memory. A stream comes out with the bytes it had, but what is in memory
already is given up. -/
namespace Gateway

namespace ResponseBody

/-- The bytes that are sent. -/
def bytes (b : ResponseBody) : Bytes := b.toBody.bytes

/-- The body has content and has it in memory. -/
def IsFull (b : ResponseBody) : Prop := ∃ content, content ≠ [] ∧ b = .full content

/-- The body is within the limit and does not break off. -/
structure Fits (b : ResponseBody) (limits : ContentLimits) : Prop where
  size : b.bytes.length ≤ limits.max
  whole : b.toBody.failure = none

@[simp] lemma bytes_full (content : Bytes) : (full content).bytes = content := by
  cases content with
  | nil => rfl
  | cons x rest => simp [bytes, toBody, Body.ofBytes, Body.bytes]

end ResponseBody

namespace Response
variable {r : Response} {limits : ContentLimits} {name : String}

/-- The headers about the size and the kind of a body. -/
def framing : List String := ["content-length", "content-type"]

/-- An answer in one piece leaves all other headers. -/
lemma values_setJson (status : Status) (value : Json) (other : name ∉ framing) :
    (r.setJson status value).headers.values name = r.headers.values name := by
  simp only [framing, List.mem_cons, List.not_mem_nil, or_false, not_or] at other
  rw [setJson, setContent, Headers.insertText, Headers.values_insert_of_ne _ (Ne.symm other.2),
    Headers.values_remove_of_ne _ (Ne.symm other.1)]

/-- So does reading it into memory. -/
lemma values_buffer (other : name ∉ framing) :
    (r.buffer limits).1.headers.values name = r.headers.values name := by
  simp only [framing, List.mem_cons, List.not_mem_nil, or_false, not_or] at other
  unfold buffer
  dsimp only
  split
  · split
    · exact Headers.values_remove_of_ne _ (Ne.symm other.1)
    · rfl
  · rfl

/-- The responses differ at most in how the body is held and whether its size is declared. -/
structure Alike (r s : Response) : Prop where
  status : s.status = r.status
  headers : s.headers.remove "content-length" = r.headers.remove "content-length"
  bytes : s.body.bytes = r.body.bytes
  whole : s.body.toBody.failure = r.body.toBody.failure

lemma Alike.refl (r : Response) : Alike r r := ⟨rfl, rfl, rfl, rfl⟩

lemma Alike.symm {s : Response} (h : Alike r s) : Alike s r :=
  ⟨h.status.symm, h.headers.symm, h.bytes.symm, h.whole.symm⟩

lemma Alike.trans {s q : Response} (h : Alike r s) (g : Alike s q) : Alike r q :=
  ⟨g.status.trans h.status, g.headers.trans h.headers, g.bytes.trans h.bytes, g.whole.trans h.whole⟩

lemma remove_remove (h : Headers) (name : String) : (h.remove name).remove name = h.remove name := by
  simp [Headers.remove, List.filter_filter]

lemma buffer_stream {b : Body} {c : ContentBuffers} (h : r.body = .stream b)
    (e : b.buffer limits none = .ok c) : r.buffer limits =
      ({ r with headers := r.headers.remove "content-length", body := .full c.toBytes }, .ok ()) := by
  unfold buffer
  rw [h]
  dsimp only
  rw [e]

lemma buffer_of_ne_stream (h : ∀ b, r.body ≠ .stream b) :
    r.buffer limits = ({ r with body := .empty }, .ok ()) := by
  unfold buffer
  split
  · next b hb => exact absurd hb (h b)
  · rfl

/-- Buffering succeeds and leaves the status and all headers but the size. It keeps the bytes of the
body unless they are in memory already. -/
theorem buffer_within (h : r.body.Fits limits) :
    (r.buffer limits).2 = .ok () ∧ (r.buffer limits).1.status = r.status ∧
      (r.buffer limits).1.headers.remove "content-length" = r.headers.remove "content-length" ∧
      (r.buffer limits).1.body.toBody.failure = none ∧
      ((r.buffer limits).1.body.bytes = r.body.bytes ↔ ¬r.body.IsFull) := by
  cases hb : r.body with
  | empty =>
    rw [buffer_of_ne_stream (by rw [hb]; nofun)]
    exact ⟨rfl, rfl, rfl, rfl, iff_of_true rfl fun ⟨_, _, e⟩ => nomatch e⟩
  | full content =>
    rw [buffer_of_ne_stream (by rw [hb]; nofun), ResponseBody.bytes_full]
    refine ⟨rfl, rfl, rfl, rfl, ?_⟩
    change [] = content ↔ _
    constructor
    · rintro rfl ⟨_, hne, e⟩
      cases e
      exact hne rfl
    · intro hf
      by_contra hne
      exact hf ⟨content, Ne.symm hne, rfl⟩
  | stream b =>
    rw [hb] at h
    obtain ⟨c, e, bytes⟩ := Body.buffer_within h.size h.whole
    rw [buffer_stream hb e, ResponseBody.bytes_full]
    exact ⟨rfl, rfl, remove_remove _ _, rfl, iff_of_true bytes fun ⟨_, _, e⟩ => nomatch e⟩

/-- The body can be read into memory: what is streamed is within the limit and does not break off. -/
def isReadable (r : Response) (limits : ContentLimits) : Bool :=
  match r.body with
  | .stream body => body.bytes.length ≤ limits.max && body.failure.isNone
  | _ => true

theorem buffer_ok_iff : (r.buffer limits).2 = .ok () ↔ r.isReadable limits = true := by
  unfold buffer isReadable
  cases r.body with
  | stream body =>
    simp only [Bool.and_eq_true, decide_eq_true_eq, Option.isNone_iff_eq_none]
    constructor
    · intro h
      cases read : body.buffer limits none with
      | ok content => exact Body.within_of_buffer read
      | error f =>
        rw [read] at h
        cases h
    · rintro ⟨size, whole⟩
      obtain ⟨content, read, -⟩ := Body.buffer_within size whole
      rw [read]
  | _ => exact iff_of_true rfl rfl

lemma alike_buffer (h : r.body.Fits limits) (hf : ¬r.body.IsFull) :
    Alike r (r.buffer limits).1 := by
  obtain ⟨-, status, headers, whole, bytes⟩ := buffer_within h
  exact ⟨status, headers, bytes.mpr hf, whole.trans h.whole.symm⟩

end Response
end Gateway
