import Gateway.Proofs.Exchange.Reading

/-! How content lies in its buffers. Every buffer but the newest is full, so how many there are and
whether there is one for the next byte depends on the size alone, and not on the chunks it came in. -/
namespace Gateway

namespace ContentBuffers
variable {l : ContentLimits} {bs cs : List Bytes} {rest chunk got : Bytes} {c d : ContentBuffers}

/-- Buffers of one size that were filled one after another, the newest one first. -/
structure Laid (l : ContentLimits) (bs : List Bytes) : Prop where
  full : ∀ b ∈ bs.tail, b.length = l.buffer
  begun : ∀ b ∈ bs.head?, 0 < b.length ∧ b.length ≤ l.buffer

lemma laid_nil : Laid l [] := ⟨nofun, nofun⟩

lemma Laid.packed (h : Laid l bs) : Packed l bs := fun b hb => Nat.le_of_eq (h.full b hb).symm

/-- The newest buffer has no room left, so all of them are full. -/
lemma Laid.all_full {b : Bytes} {older : List Bytes} (h : Laid l (b :: older))
    (full : ¬b.length < l.buffer) : ∀ x ∈ b :: older, x.length = l.buffer := by
  have fits := (h.begun b rfl).2
  intro x hx
  rcases List.mem_cons.mp hx with rfl | hx
  · omega
  · exact h.full x hx

/-- A new buffer takes at least one byte, and no more than it has room for. -/
lemma laid_cons {x : UInt8} {xs : Bytes} (h : ∀ b ∈ bs, b.length = l.buffer) :
    Laid l ((x :: xs).take l.buffer :: bs) := by
  refine ⟨h, fun b hb => ?_⟩
  obtain rfl := Option.some.inj hb
  have pos := l.buffer_pos
  simp only [List.length_take, List.length_cons]
  omega

lemma pour_laid (h : Laid l bs) (poured : pour l bs rest = some cs) : Laid l cs := by
  fun_induction pour l bs rest with
  | case1 bs =>
    obtain rfl := Option.some.inj poured
    exact h
  | case2 x xs b older free room ih =>
    refine ih ⟨h.full, fun y hy => ?_⟩ poured
    obtain rfl := Option.some.inj hy
    have begun := (h.begun b rfl).1
    simp only [List.length_append, List.length_take, List.length_cons]
    omega
  | case3 x xs b older full count ih => exact ih (laid_cons (h.all_full full)) poured
  | case4 => cases poured
  | case5 x xs count ih => exact ih (laid_cons (List.forall_mem_nil _)) poured
  | case6 => cases poured

/-- So many full buffers and one that is begun hold so many bytes. -/
lemma Laid.length_placed {b : Bytes} {older : List Bytes} (h : Laid l (b :: older)) :
    (placed (b :: older)).length = older.length * l.buffer + b.length := by
  have full : (placed older).length = older.length * l.buffer := by
    have each := h.full
    rw [List.tail_cons] at each
    clear h
    induction older with
    | nil => simp [placed]
    | cons x more ih =>
      have hx := each x List.mem_cons_self
      have others := ih fun y hy => each y (List.mem_cons_of_mem _ hy)
      rw [placed_cons, List.length_append, others, hx, List.length_cons, Nat.succ_mul]
  rw [placed_cons, List.length_append, full]

/-- There are as many buffers as the bytes need. -/
theorem Laid.length_eq (h : Laid l bs) :
    bs.length = ((placed bs).length + l.buffer - 1) / l.buffer := by
  have pos := l.buffer_pos
  cases bs with
  | nil =>
    have less : 0 + l.buffer - 1 < l.buffer := by omega
    exact (Nat.div_eq_of_lt less).symm
  | cons b older =>
    obtain ⟨some_, fits⟩ := h.begun b rfl
    have parts : older.length * l.buffer + b.length + l.buffer - 1 =
        b.length - 1 + (older.length + 1) * l.buffer := by
      rw [Nat.succ_mul]
      omega
    rw [h.length_placed, parts, Nat.add_mul_div_right _ _ pos, Nat.div_eq_of_lt (by omega),
      Nat.zero_add, List.length_cons]

lemma length_le_maxBuffers (h : Laid l bs) (fits : (placed bs).length ≤ l.max) :
    bs.length ≤ l.maxBuffers := by
  have pos := l.buffer_pos
  calc bs.length = ((placed bs).length + l.buffer - 1) / l.buffer := h.length_eq
    _ ≤ (l.max + l.buffer) / l.buffer := Nat.div_le_div_right (by omega)
    _ = l.maxBuffers := by rw [Nat.add_div_right _ pos, ContentLimits.maxBuffers, Nat.add_comm]

section InPlace

/-! The same by rounds. A round opens a buffer, if the newest one is full and there may be more, and
puts as much into it as there is room for. When a chunk is refused, what earlier rounds have placed
stays. -/

/-- A buffer with room, and the buffers before it. -/
def openBuffer? (l : ContentLimits) :
    List Bytes → Option ({ b : Bytes // b.length < l.buffer } × List Bytes)
  | b :: older =>
    if free : b.length < l.buffer then some (⟨b, free⟩, older)
    else if (b :: older).length < l.maxBuffers then some (⟨[], l.buffer_pos⟩, b :: older)
    else none
  | [] => if 0 < l.maxBuffers then some (⟨[], l.buffer_pos⟩, []) else none

/-- The buffers after all rounds, and the bytes that found none. -/
def fill (l : ContentLimits) (bs : List Bytes) (rest : Bytes) : List Bytes × Bytes :=
  match rest with
  | [] => (bs, [])
  | x :: xs =>
    match openBuffer? l bs with
    | none => (bs, x :: xs)
    | some (⟨b, _⟩, older) =>
      let room := l.buffer - b.length
      fill l ((b ++ (x :: xs).take room) :: older) ((x :: xs).drop room)
termination_by rest.length
decreasing_by simp only [List.length_drop, List.length_cons]; omega

/-- Append a chunk to the content as it stands. -/
def pushInPlace (c : ContentBuffers) (chunk : Bytes) : ContentBuffers × Except Failure Unit :=
  if c.size + chunk.length > c.limits.max then (c, .error (.contentTooLarge c.limits.max))
  else match fill c.limits c.newestFirst chunk with
    | (bs, []) => ({ c with newestFirst := bs, size := c.size + chunk.length }, .ok ())
    | (bs, _ :: _) => ({ c with newestFirst := bs }, .error (.contentTooLarge c.limits.max))

/-- Append chunks one by one, whether or not those before them were refused. -/
def pushEach (c : ContentBuffers) (chunks : List Bytes) : ContentBuffers :=
  chunks.foldl (fun c chunk => (c.pushInPlace chunk).1) c

theorem pour_eq_fill (l : ContentLimits) (bs : List Bytes) (rest : Bytes) :
    pour l bs rest = if (fill l bs rest).2 = [] then some (fill l bs rest).1 else none := by
  fun_induction pour l bs rest with
  | case1 bs => simp [fill]
  | case2 x xs b older free room ih =>
    rw [ih, fill]
    simp [openBuffer?, free, room]
  | case3 x xs b older full count ih =>
    rw [List.length_cons] at count
    rw [ih, fill]
    simp [openBuffer?, full, count]
  | case4 x xs b older full count =>
    rw [List.length_cons] at count
    rw [fill]
    simp [openBuffer?, full, count]
  | case5 x xs count ih =>
    rw [ih, fill]
    simp [openBuffer?, count]
  | case6 x xs count =>
    rw [fill]
    simp [openBuffer?, count]

/-- Whether it is refused, and what it makes of the content if not, does not depend on the rounds. -/
theorem push_eq (c : ContentBuffers) (chunk : Bytes) :
    c.push chunk = (c.pushInPlace chunk).2.map fun _ => (c.pushInPlace chunk).1 := by
  unfold push pushInPlace
  split
  · rfl
  · rw [pour_eq_fill]
    obtain ⟨bs, left⟩ := fill c.limits c.newestFirst chunk
    cases left with
    | nil => rfl
    | cons x xs => rfl

lemma pushInPlace_of_push (h : c.push chunk = .ok d) : c.pushInPlace chunk = (d, .ok ()) := by
  rw [push_eq] at h
  generalize c.pushInPlace chunk = pushed at h ⊢
  obtain ⟨e, outcome⟩ := pushed
  cases outcome with
  | error f => cases h
  | ok u =>
    obtain rfl := Except.ok.inj h
    rfl

lemma pushEach_of_pushAll {chunks : List Bytes} (h : c.pushAll chunks = .ok d) :
    c.pushEach chunks = d := by
  induction chunks generalizing c with
  | nil => exact Except.ok.inj h
  | cons chunk chunks ih =>
    change c.push chunk >>= (pushAll · chunks) = .ok d at h
    cases first : c.push chunk with
    | error f =>
      rw [first] at h
      cases h
    | ok e =>
      rw [first] at h
      rw [pushEach, List.foldl_cons, pushInPlace_of_push first]
      exact ih h

end InPlace

section Sequence

/-! Chunks that come one after another. One that would exceed the limit is refused, and those behind it
are taken if there is room for them. -/

/-- What was taken so far, with one more chunk if it fits. -/
def takeChunk (max : Nat) (got chunk : Bytes) : Bytes :=
  if got.length + chunk.length ≤ max then got ++ chunk else got

/-- The bytes of all chunks that fit. -/
def taken (max : Nat) (chunks : List Bytes) : Bytes := chunks.foldl (takeChunk max) []

/-- The content is these bytes and lies as it should, within the limit. -/
structure Holds (c : ContentBuffers) (l : ContentLimits) (got : Bytes) : Prop where
  limits : c.limits = l
  laid : Laid l c.newestFirst
  size : c.size = got.length
  bytes : c.toBytes = got
  within : got.length ≤ l.max

lemma holds_start (l : ContentLimits) : Holds { limits := l } l [] :=
  ⟨rfl, laid_nil, rfl, rfl, Nat.zero_le _⟩

/-- A chunk that fits finds buffers for all of its bytes. -/
lemma Holds.fill_of_fits (h : c.Holds l got) (fits : got.length + chunk.length ≤ l.max) :
    (fill l c.newestFirst chunk).2 = [] := by
  have bytes : placed c.newestFirst = got := h.bytes
  obtain ⟨cs, poured, -, -⟩ := pour_within h.laid.packed (bytes ▸ fits)
  rw [pour_eq_fill] at poured
  split at poured
  · assumption
  · cases poured

lemma Holds.push_of_fits (h : c.Holds l got) (fits : got.length + chunk.length ≤ l.max) :
    (c.pushInPlace chunk).2 = .ok () ∧ (c.pushInPlace chunk).1.Holds l (got ++ chunk) := by
  obtain ⟨rfl, laid, size, bytes, -⟩ := h
  have room : ¬c.size + chunk.length > c.limits.max := by omega
  obtain ⟨cs, poured, -, placed_⟩ := pour_within laid.packed (bytes ▸ fits)
  have pushed : c.push chunk = .ok { c with newestFirst := cs, size := c.size + chunk.length } := by
    rw [push, if_neg room, poured]
  rw [pushInPlace_of_push pushed]
  refine ⟨rfl, rfl, pour_laid laid poured, ?_, ?_, ?_⟩
  · rw [List.length_append, size]
  · rw [toBytes_eq, placed_, ← toBytes_eq, bytes]
  · rwa [List.length_append]

/-- A chunk that does not fit leaves no byte behind. -/
lemma Holds.push_of_large (h : c.Holds l got) (large : l.max < got.length + chunk.length) :
    c.pushInPlace chunk = (c, .error (.contentTooLarge l.max)) := by
  obtain ⟨rfl, -, size, -, -⟩ := h
  exact if_pos (size ▸ large)

lemma Holds.pushInPlace (h : c.Holds l got) (chunk : Bytes) :
    (c.pushInPlace chunk).1.Holds l (takeChunk l.max got chunk) := by
  unfold takeChunk
  split
  · next fits => exact (h.push_of_fits fits).2
  · next large =>
    rw [h.push_of_large (Nat.not_le.mp large)]
    exact h

theorem Holds.pushEach (h : c.Holds l got) (chunks : List Bytes) :
    (c.pushEach chunks).Holds l (chunks.foldl (takeChunk l.max) got) := by
  induction chunks generalizing c got with
  | nil => exact h
  | cons chunk chunks ih => exact ih (h.pushInPlace chunk)

/-- In order, every buffer but the last is full, and the last one is begun. -/
lemma Holds.buffers (h : c.Holds l got) :
    (∀ b ∈ c.buffers.dropLast, b.length = l.buffer) ∧
      ∀ b ∈ c.buffers.getLast?, 0 < b.length ∧ b.length ≤ l.buffer := by
  unfold ContentBuffers.buffers
  refine ⟨fun b hb => h.laid.full b ?_, fun b hb => h.laid.begun b ?_⟩
  · rwa [List.dropLast_reverse, List.mem_reverse] at hb
  · rwa [List.getLast?_reverse] at hb

lemma Holds.count_eq (h : c.Holds l got) : c.count = (got.length + l.buffer - 1) / l.buffer := by
  have bytes : placed c.newestFirst = got := h.bytes
  exact bytes ▸ h.laid.length_eq

lemma Holds.count_le (h : c.Holds l got) : c.count ≤ l.maxBuffers := by
  have bytes : placed c.newestFirst = got := h.bytes
  exact length_le_maxBuffers h.laid (bytes ▸ h.within)

end Sequence

end ContentBuffers

namespace Body
variable {b : Body} {limits : ContentLimits} {declared : Option Nat} {c : ContentBuffers}

/-- What is read was pushed chunk by chunk. -/
lemma pushEach_of_buffer (h : b.buffer limits declared = .ok c) :
    ContentBuffers.pushEach { limits } b.chunks = c := by
  unfold buffer at h
  split at h
  · cases h
  · cases pushed : ContentBuffers.pushAll { limits } b.chunks with
    | error f =>
      rw [pushed] at h
      cases h
    | ok d =>
      rw [pushed] at h
      have same : d = c := by
        cases whole : b.failure with
        | some reason =>
          rw [whole] at h
          cases h
        | none =>
          rw [whole] at h
          exact Except.ok.inj h
      exact same ▸ ContentBuffers.pushEach_of_pushAll pushed

/-- What becomes of a body, by its size, the one that was declared, and whether it breaks off. -/
theorem buffer_cases (b : Body) (limits : ContentLimits) (declared : Option Nat) :
    (b.buffer limits declared = .error (.contentTooLarge limits.max) ↔ b.TooLarge limits declared) ∧
      (∀ reason, b.buffer limits declared = .error (.malformedContent reason) ↔
        ¬b.TooLarge limits declared ∧ b.failure = some reason) ∧
      ∀ c, b.buffer limits declared = .ok c ↔ ¬b.TooLarge limits declared ∧ b.failure = none ∧
        c = ContentBuffers.pushEach { limits } b.chunks := by
  have read := b.buffer_eq limits declared
  by_cases large : b.TooLarge limits declared
  · rw [refusal?_of_tooLarge large] at read
    rw [show b.buffer limits declared = .error (.contentTooLarge limits.max) from read]
    simp [large]
  · cases whole : b.failure with
    | some reason =>
      rw [refusal?_of_failure large whole] at read
      rw [show b.buffer limits declared = .error (.malformedContent reason) from read]
      simp [large, eq_comm]
    | none =>
      rw [refusal?, if_neg large, whole] at read
      obtain ⟨⟨c, accepted, -⟩, -⟩ := read
      rw [accepted, ← pushEach_of_buffer accepted]
      simp [large, eq_comm]

end Body

namespace ContentBuffers

/-- What is read depends on the total alone. A body is refused as too large just if its size or the
declared one is over the limit, as malformed just if it breaks off within the limit, and is read
whole otherwise. After any chunks, refused ones among them, all buffers but the last are full, there
are as many as the bytes need, and they hold the bytes of the chunks that fit, in order. The next
chunk is taken whole if it fits, without running out of buffers, and leaves the content as it was if
it does not. -/
theorem decided_by_total (limits : ContentLimits) :
    (∀ (b : Body) (declared : Option Nat),
      let read := b.buffer limits declared
      let large := limits.max < b.bytes.length ∨ ∃ n ∈ declared, limits.max < n
      (read = .error (.contentTooLarge limits.max) ↔ large) ∧
        (∀ reason, read = .error (.malformedContent reason) ↔ ¬large ∧ b.failure = some reason) ∧
        (∀ c, read = .ok c ↔ ¬large ∧ b.failure = none ∧ c = pushEach { limits } b.chunks) ∧
        ∀ c, read = .ok c → c.buffers.flatten = b.bytes) ∧
    ∀ chunks : List Bytes,
      let c := pushEach { limits } chunks
      let got := taken limits.max chunks
      (∀ b ∈ c.buffers.dropLast, b.length = limits.buffer) ∧
        (∀ b ∈ c.buffers.getLast?, 0 < b.length ∧ b.length ≤ limits.buffer) ∧
        c.buffers.length = (got.length + limits.buffer - 1) / limits.buffer ∧
        c.buffers.length ≤ 1 + limits.max / limits.buffer ∧
        c.size = got.length ∧ c.toBytes = got ∧ c.toBody.read = .ok got ∧
        ∀ chunk, c.push chunk = (c.pushInPlace chunk).2.map (fun _ => (c.pushInPlace chunk).1) ∧
          (got.length + chunk.length ≤ limits.max → (fill limits c.newestFirst chunk).2 = [] ∧
            (c.pushInPlace chunk).2 = .ok () ∧ (c.pushInPlace chunk).1.toBytes = got ++ chunk) ∧
          (limits.max < got.length + chunk.length →
            c.pushInPlace chunk = (c, .error (.contentTooLarge limits.max))) := by
  constructor
  · intro b declared read large
    obtain ⟨refused, broken, accepted⟩ := b.buffer_cases limits declared
    refine ⟨refused, broken, accepted, fun c h => ?_⟩
    have whole := b.buffer_eq limits declared
    rw [Body.refusal?, if_neg ((accepted c).mp h).1, ((accepted c).mp h).2.1] at whole
    obtain ⟨⟨d, same, bytes⟩, -⟩ := whole
    obtain rfl := Except.ok.inj (h.symm.trans same)
    exact bytes
  · intro chunks c got
    have holds : c.Holds limits got := (holds_start limits).pushEach chunks
    obtain ⟨full, last⟩ := holds.buffers
    have count : c.buffers.length = c.count := List.length_reverse
    refine ⟨full, last, count ▸ holds.count_eq, count ▸ holds.count_le, holds.size, holds.bytes,
      congrArg _ holds.bytes, fun chunk => ⟨c.push_eq chunk, fun fits => ?_, holds.push_of_large⟩⟩
    obtain ⟨ok, after⟩ := holds.push_of_fits fits
    exact ⟨holds.fill_of_fits fits, ok, after.bytes⟩

/-- Ten bytes in buffers of four. The second of three chunks is refused, and the third one is taken. -/
theorem decided_ten_in_fours :
    let limits : ContentLimits := { max := 10, buffer := 4 }
    let chunks : List Bytes := [[1, 2, 3, 4, 5, 6], [7, 8, 9, 10, 11], [12, 13, 14, 15]]
    let c := pushEach { limits } chunks
    c.toBytes = [1, 2, 3, 4, 5, 6, 12, 13, 14, 15] ∧ c.buffers.length = 3 ∧
      (c.pushInPlace []).2 = .ok () ∧
      c.pushInPlace [16] = (c, .error (.contentTooLarge 10)) := by
  intro limits chunks c
  obtain ⟨-, -, count, -, -, bytes, -, next⟩ := (decided_by_total limits).2 chunks
  have got : taken limits.max chunks = [1, 2, 3, 4, 5, 6, 12, 13, 14, 15] := by decide
  rw [got] at bytes count next
  exact ⟨bytes, count.trans (by decide), ((next []).2.1 (by decide)).2.1, (next [16]).2.2 (by decide)⟩

end ContentBuffers
end Gateway
