import Mathlib.Tactic.Common
import Gateway.Exchange.Body

/-! Content in buffers. As long as it stays within the limit there is a buffer for every byte, because
only the newest buffer may have room left. -/
namespace Gateway

namespace ContentBuffers
variable {l : ContentLimits} {bs cs : List Bytes} {rest : Bytes} {c : ContentBuffers}

/-- All buffers but the newest are full. -/
def Packed (l : ContentLimits) (bs : List Bytes) : Prop := ∀ b ∈ bs.tail, l.buffer ≤ b.length

lemma Packed.all_full {b : Bytes} {older : List Bytes} (h : Packed l (b :: older))
    (full : ¬b.length < l.buffer) : ∀ x ∈ b :: older, l.buffer ≤ x.length := by
  rintro x (_ | ⟨_, hx⟩)
  · omega
  · exact h x hx

/-- The bytes in some buffers, in order. -/
def placed (bs : List Bytes) : Bytes := bs.reverse.flatten

lemma placed_cons (b : Bytes) (older : List Bytes) : placed (b :: older) = placed older ++ b := by
  simp [placed]

lemma full_le_length (h : ∀ b ∈ bs, l.buffer ≤ b.length) :
    bs.length * l.buffer ≤ (placed bs).length := by
  induction bs with
  | nil => simp
  | cons b older ih =>
    have hb := h b List.mem_cons_self
    have ho := ih fun x hx => h x (List.mem_cons_of_mem _ hx)
    rw [placed_cons, List.length_append, List.length_cons, Nat.add_mul, Nat.one_mul]
    omega

/-- Where there is room within the limit there is a buffer left. -/
lemma length_lt_maxBuffers (h : ∀ b ∈ bs, l.buffer ≤ b.length)
    (fits : (placed bs).length ≤ l.max) : bs.length < l.maxBuffers := by
  have le := Nat.le_trans (full_le_length h) fits
  have := (Nat.le_div_iff_mul_le l.buffer_pos).mpr le
  unfold ContentLimits.maxBuffers
  omega

/-- Within the limit, pouring places every byte behind those that are there. -/
theorem pour_within (packed : Packed l bs) (fits : (placed bs).length + rest.length ≤ l.max) :
    ∃ cs, pour l bs rest = some cs ∧ Packed l cs ∧ placed cs = placed bs ++ rest := by
  fun_induction pour l bs rest with
  | case1 bs => exact ⟨bs, rfl, packed, (List.append_nil _).symm⟩
  | case2 x xs b older free room ih =>
    have fits' : (placed ((b ++ (x :: xs).take room) :: older)).length +
        ((x :: xs).drop room).length ≤ l.max := by
      simp only [placed_cons, List.length_append, List.length_take, List.length_drop] at fits ⊢
      omega
    obtain ⟨cs, e, hcs, bytes⟩ := ih packed fits'
    refine ⟨cs, e, hcs, ?_⟩
    rw [bytes, placed_cons, placed_cons, List.append_assoc, List.append_assoc, List.append_assoc,
      List.take_append_drop]
  | case3 x xs b older full count ih =>
    have fits' : (placed ((x :: xs).take l.buffer :: b :: older)).length +
        ((x :: xs).drop l.buffer).length ≤ l.max := by
      rw [placed_cons]
      simp only [List.length_append, List.length_take, List.length_drop] at fits ⊢
      omega
    obtain ⟨cs, e, hcs, bytes⟩ := ih (packed.all_full full) fits'
    refine ⟨cs, e, hcs, ?_⟩
    rw [bytes, placed_cons _ (b :: older), List.append_assoc, List.take_append_drop]
  | case4 x xs b older full count =>
    exact absurd (length_lt_maxBuffers (packed.all_full full) (by omega)) count
  | case5 x xs count ih =>
    have fits' : (placed [(x :: xs).take l.buffer]).length + ((x :: xs).drop l.buffer).length ≤
        l.max := by
      rw [placed_cons]
      simp only [List.length_append, List.length_take, List.length_drop] at fits ⊢
      omega
    obtain ⟨cs, e, hcs, bytes⟩ := ih nofun fits'
    refine ⟨cs, e, hcs, ?_⟩
    rw [bytes, placed_cons, List.append_assoc, List.take_append_drop]
  | case6 x xs count => exact absurd (Nat.lt_of_lt_of_le Nat.one_pos (Nat.le_add_right 1 _)) count

/-- The size is that of the content, and all buffers but the newest are full. -/
structure Sound (c : ContentBuffers) : Prop where
  packed : Packed c.limits c.newestFirst
  size : c.size = c.toBytes.length

lemma toBytes_eq (c : ContentBuffers) : c.toBytes = placed c.newestFirst := rfl

theorem push_within (h : c.Sound) {chunk : Bytes}
    (fits : c.toBytes.length + chunk.length ≤ c.limits.max) :
    ∃ d, c.push chunk = .ok d ∧ d.Sound ∧ d.limits = c.limits ∧ d.toBytes = c.toBytes ++ chunk := by
  obtain ⟨cs, e, packed, bytes⟩ := pour_within h.packed fits
  rw [← toBytes_eq] at bytes
  have room : ¬c.size + chunk.length > c.limits.max := by
    rw [h.size]
    omega
  refine ⟨{ c with newestFirst := cs, size := c.size + chunk.length }, ?_, ⟨packed, ?_⟩, rfl, bytes⟩
  · rw [push, if_neg room, e]
  · rw [toBytes_eq, bytes, List.length_append, h.size]

/-- Chunks that stay within the limit together are all taken, in order. -/
theorem pushAll_within (h : c.Sound) {chunks : List Bytes}
    (fits : c.toBytes.length + chunks.flatten.length ≤ c.limits.max) :
    ∃ d, c.pushAll chunks = .ok d ∧ d.toBytes = c.toBytes ++ chunks.flatten := by
  induction chunks generalizing c with
  | nil => exact ⟨c, rfl, (List.append_nil _).symm⟩
  | cons chunk chunks ih =>
    rw [List.flatten_cons, List.length_append] at fits
    have first : c.toBytes.length + chunk.length ≤ c.limits.max := by omega
    obtain ⟨d, e, hd, limits, bytes⟩ := push_within h first
    obtain ⟨f, ef, bytes'⟩ := ih hd (by rw [bytes, limits, List.length_append]; omega)
    refine ⟨f, ?_, ?_⟩
    · change c.push chunk >>= (pushAll · chunks) = .ok f
      rw [e]
      exact ef
    · rw [bytes', bytes, List.append_assoc, List.flatten_cons]

/-- A chunk that is taken is counted, and all that is counted is within the limit. -/
lemma size_of_push {d : ContentBuffers} {chunk : Bytes} (h : c.push chunk = .ok d) :
    d.limits = c.limits ∧ d.size = c.size + chunk.length ∧ d.size ≤ c.limits.max := by
  unfold push at h
  split at h
  · cases h
  · next room =>
    split at h
    · obtain rfl := Except.ok.inj h
      exact ⟨rfl, rfl, Nat.le_of_not_lt room⟩
    · cases h

lemma size_of_pushAll {d : ContentBuffers} {chunks : List Bytes} (h : c.pushAll chunks = .ok d)
    (start : c.size ≤ c.limits.max) : c.size + chunks.flatten.length ≤ c.limits.max := by
  induction chunks generalizing c with
  | nil => exact start
  | cons chunk chunks ih =>
    change c.push chunk >>= (pushAll · chunks) = .ok d at h
    cases first : c.push chunk with
    | error f =>
      rw [first] at h
      cases h
    | ok m =>
      rw [first] at h
      obtain ⟨limits, size, within⟩ := size_of_push first
      have rest := ih h (limits ▸ within)
      rw [limits, size] at rest
      rw [List.flatten_cons, List.length_append]
      omega

end ContentBuffers

/-- A body that is read is within the limit and does not break off. -/
theorem Body.within_of_buffer {b : Body} {limits : ContentLimits} {c : ContentBuffers}
    (h : b.buffer limits none = .ok c) : b.bytes.length ≤ limits.max ∧ b.failure = none := by
  change (ContentBuffers.pushAll ⟨limits, [], 0⟩ b.chunks >>= fun content => _) = Except.ok c at h
  cases pushed : ContentBuffers.pushAll ⟨limits, [], 0⟩ b.chunks with
  | error f =>
    rw [pushed] at h
    cases h
  | ok content =>
    rw [pushed] at h
    have size := ContentBuffers.size_of_pushAll pushed (Nat.zero_le _)
    refine ⟨by rwa [Nat.zero_add] at size, ?_⟩
    cases whole : b.failure with
    | none => rfl
    | some reason =>
      rw [whole] at h
      cases h

/-- A body within the limit that does not break off is read as it is. -/
theorem Body.buffer_within {b : Body} {limits : ContentLimits}
    (fits : b.bytes.length ≤ limits.max) (whole : b.failure = none) :
    ∃ c, b.buffer limits none = .ok c ∧ c.toBytes = b.bytes := by
  have start : (ContentBuffers.mk limits [] 0).Sound := ⟨nofun, rfl⟩
  have fits' : 0 + b.chunks.flatten.length ≤ limits.max := by rwa [Nat.zero_add]
  obtain ⟨c, e, bytes⟩ := ContentBuffers.pushAll_within start fits'
  refine ⟨c, ?_, bytes⟩
  change (ContentBuffers.pushAll _ _ >>= fun content => _) = Except.ok c
  rw [e, whole]
  rfl

end Gateway
