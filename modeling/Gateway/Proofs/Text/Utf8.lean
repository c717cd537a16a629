import Mathlib.Data.List.Basic
import Mathlib.Data.List.TakeWhile
import Gateway.Proofs.Text.Printable

/-! Reading back what was written in UTF-8. Each character is found at the start of its bytes, whatever
follows them, so nothing of a text is replaced. -/
namespace Gateway.Bytes
variable {n m low high : ℕ} {ms : List ℕ} {rest : Bytes}

/-- The table of first bytes, in numbers. -/
lemma lead_ofNat (h : n < 256) : lead (.ofNat n) =
    if 0xC2 ≤ n ∧ n ≤ 0xDF then some (.ofNat 0x80, .ofNat 0xBF, 0)
    else if n = 0xE0 then some (.ofNat 0xA0, .ofNat 0xBF, 1)
    else if n = 0xED then some (.ofNat 0x80, .ofNat 0x9F, 1)
    else if 0xE1 ≤ n ∧ n ≤ 0xEF then some (.ofNat 0x80, .ofNat 0xBF, 1)
    else if n = 0xF0 then some (.ofNat 0x90, .ofNat 0xBF, 2)
    else if 0xF1 ≤ n ∧ n ≤ 0xF3 then some (.ofNat 0x80, .ofNat 0xBF, 2)
    else if n = 0xF4 then some (.ofNat 0x80, .ofNat 0x8F, 2)
    else none := by
  simp only [lead, UInt8.le_iff_toNat_le, ← UInt8.toNat_inj, UInt8.toNat_ofNat_of_lt' h, UInt8.reduceToNat,
    Bool.and_eq_true, decide_eq_true_eq]
  rfl

/-- The code point that a first byte and those after it stand for, in numbers. -/
def codePoint (n : ℕ) (ms : List ℕ) : ℕ :=
  let top := match ms.length with
    | 1 => n % 0x20
    | 2 => n % 0x10
    | _ => n % 0x08
  ms.foldl (fun k m => k * 0x40 + m % 0x40) top

lemma scalar_ofNat (hn : n < 256) (hms : ∀ m ∈ ms, m < 256) :
    scalar (.ofNat n) (ms.map .ofNat) = Char.ofNat (codePoint n ms) := by
  have folded (top : ℕ) : (ms.map UInt8.ofNat).foldl (fun k b => k * 0x40 + b.toNat % 0x40) top =
      ms.foldl (fun k m => k * 0x40 + m % 0x40) top := by
    induction ms generalizing top with
    | nil => rfl
    | cons m ms ih =>
      have hm : m < 256 := hms m List.mem_cons_self
      rw [List.map_cons, List.foldl_cons, List.foldl_cons, UInt8.toNat_ofNat_of_lt' hm,
        ih fun k hk => hms k (List.mem_cons_of_mem _ hk)]
  rw [scalar, folded, List.length_map, UInt8.toNat_ofNat_of_lt' hn]
  rfl

lemma ofNat_le_ofNat (h : m ≤ n) (hn : n < 256) : UInt8.ofNat m ≤ .ofNat n :=
  (UInt8.ofNat_le_iff_le (Nat.lt_of_le_of_lt h hn) hn).mpr h

lemma decodeFirst_small (h : n < 0x80) : decodeFirst (.ofNat n) rest = (Char.ofNat n, 0) := by
  have byte : n < 256 := by omega
  have small : UInt8.ofNat n < 0x80 := (UInt8.ofNat_lt_iff_lt byte (by decide)).mpr h
  unfold decodeFirst
  rw [if_pos small, UInt8.toNat_ofNat_of_lt' byte]

/-- A character of more than one byte: the first byte fixes how many follow, and where the second one
lies. -/
lemma decodeFirst_large (hn : 0x80 ≤ n ∧ n < 256)
    (first : lead (.ofNat n) = some (.ofNat low, .ofNat high, ms.length))
    (second : low ≤ m ∧ m ≤ high ∧ high < 256) (tails : ∀ k ∈ ms, 0x80 ≤ k ∧ k ≤ 0xBF) (rest : Bytes) :
    decodeFirst (.ofNat n) ((m :: ms).map .ofNat ++ rest) =
      (Char.ofNat (codePoint n (m :: ms)), ms.length + 1) := by
  have large : ¬UInt8.ofNat n < 0x80 := UInt8.not_lt.mpr (ofNat_le_ofNat hn.1 hn.2)
  have within : UInt8.ofNat low ≤ .ofNat m ∧ UInt8.ofNat m ≤ .ofNat high :=
    ⟨ofNat_le_ofNat second.1 (by omega), ofNat_le_ofNat second.2.1 second.2.2⟩
  have taken : ((ms.map UInt8.ofNat ++ rest).take ms.length).takeWhile isTail = ms.map .ofNat := by
    have all : ∀ b ∈ ms.map UInt8.ofNat, isTail b = true := by
      refine List.forall_mem_map.mpr fun k hk => ?_
      obtain ⟨least, most⟩ := tails k hk
      rw [isTail, Bool.and_eq_true, decide_eq_true_eq, decide_eq_true_eq]
      exact ⟨ofNat_le_ofNat least (by omega), ofNat_le_ofNat most (by decide)⟩
    rw [List.take_left' (List.length_map _), List.takeWhile_eq_self_iff.mpr all]
  have bytes : ∀ k ∈ m :: ms, k < 256 :=
    List.forall_mem_cons.mpr ⟨by omega, fun k hk => by have := tails k hk; omega⟩
  rw [← scalar_ofNat hn.2 bytes, List.map_cons, List.cons_append]
  simp only [decodeFirst, if_neg large, first, within, taken, List.length_map, decide_true, Bool.and_self,
    if_true]

/-- A character is read from the bytes it is written in. -/
theorem decodeFirst_utf8EncodeChar (c : Char) (rest : Bytes) :
    ∃ a tail, String.utf8EncodeChar c = a :: tail ∧ decodeFirst a (tail ++ rest) = (c, tail.length) := by
  obtain ⟨n, value⟩ : ∃ n, n = c.toNat := ⟨_, rfl⟩
  have valid : n < 0xD800 ∨ 0xDFFF < n ∧ n < 0x110000 := value ▸ c.valid
  have char : c = Char.ofNat n := by rw [value, Char.ofNat_toNat]
  rw [String.utf8EncodeChar.eq_1, show c.val.toNat = n from value.symm, char]
  clear value char
  -- The cases are those of the encoding: one to four bytes.
  split
  · exact ⟨_, [], rfl, decodeFirst_small (by omega)⟩
  split
  · have first : lead (.ofNat (n / 64 % 32 + 192)) = some (.ofNat 0x80, .ofNat 0xBF, 0) := by
      rw [lead_ofNat (by omega), if_pos (by omega)]
    have point : codePoint (n / 64 % 32 + 192) [n % 64 + 128] = n := by
      simp only [codePoint, List.length_cons, List.length_nil, List.foldl_cons, List.foldl_nil]
      omega
    have second : 0x80 ≤ n % 64 + 128 ∧ n % 64 + 128 ≤ 0xBF ∧ 0xBF < 256 := by omega
    have read := decodeFirst_large (by omega) first second (List.forall_mem_nil _) rest
    rw [point] at read
    exact ⟨_, _, rfl, read⟩
  split
  · obtain ⟨low, high, first, second⟩ : ∃ low high,
        lead (.ofNat (n / 4096 % 16 + 224)) = some (.ofNat low, .ofNat high, 1) ∧
          low ≤ n / 64 % 64 + 128 ∧ n / 64 % 64 + 128 ≤ high ∧ high < 256 := by
      rw [lead_ofNat (by omega), if_neg (by omega)]
      split_ifs <;> first | exact ⟨_, _, rfl, by omega⟩ | omega
    have point : codePoint (n / 4096 % 16 + 224) [n / 64 % 64 + 128, n % 64 + 128] = n := by
      simp only [codePoint, List.length_cons, List.length_nil, List.foldl_cons, List.foldl_nil]
      omega
    have tails : ∀ k ∈ [n % 64 + 128], 0x80 ≤ k ∧ k ≤ 0xBF := by simp; omega
    have read := decodeFirst_large (by omega) first second tails rest
    rw [point] at read
    exact ⟨_, _, rfl, read⟩
  · obtain ⟨low, high, first, second⟩ : ∃ low high,
        lead (.ofNat (n / 262144 % 8 + 240)) = some (.ofNat low, .ofNat high, 2) ∧
          low ≤ n / 4096 % 64 + 128 ∧ n / 4096 % 64 + 128 ≤ high ∧ high < 256 := by
      rw [lead_ofNat (by omega), if_neg (by omega), if_neg (by omega), if_neg (by omega), if_neg (by omega)]
      split_ifs <;> first | exact ⟨_, _, rfl, by omega⟩ | omega
    have point : codePoint (n / 262144 % 8 + 240)
        [n / 4096 % 64 + 128, n / 64 % 64 + 128, n % 64 + 128] = n := by
      simp only [codePoint, List.length_cons, List.length_nil, List.foldl_cons, List.foldl_nil]
      omega
    have tails : ∀ k ∈ [n / 64 % 64 + 128, n % 64 + 128], 0x80 ≤ k ∧ k ≤ 0xBF := by simp; omega
    have read := decodeFirst_large (by omega) first second tails rest
    rw [point] at read
    exact ⟨_, _, rfl, read⟩

/-- Characters that were written are read, and then what follows them. -/
lemma lossyChars_append (cs : List Char) (rest : Bytes) :
    lossyChars (cs.flatMap String.utf8EncodeChar ++ rest) = cs ++ lossyChars rest := by
  induction cs with
  | nil => rfl
  | cons c cs ih =>
    obtain ⟨a, tail, written, read⟩ :=
      decodeFirst_utf8EncodeChar c (cs.flatMap String.utf8EncodeChar ++ rest)
    rw [List.flatMap_cons, written, List.cons_append, List.cons_append, List.append_assoc, lossyChars, read]
    simp only [List.drop_left, ih, List.cons_append]

/-- What was written is read back, without a replacement. -/
theorem lossy_ofText (s : String) : lossy (ofText s) = s := by
  have chars := lossyChars_append s.toList []
  rw [List.append_nil, lossyChars, List.append_nil] at chars
  rw [lossy, ofText_eq_flatMap, chars, String.ofList_toList]

/-- Bytes that follow a text within a text are a text themselves. -/
lemma exists_of_ofText_eq_append {s t : String} (h : ofText s = ofText t ++ rest) :
    ∃ u, s = t ++ u ∧ rest = ofText u := by
  have read := lossy_ofText s
  rw [h, lossy, ofText_eq_flatMap t, lossyChars_append, String.ofList_append, String.ofList_toList] at read
  refine ⟨String.ofList (lossyChars rest), read.symm, ?_⟩
  rw [← read, ofText_append] at h
  exact (List.append_cancel_left h).symm

lemma utf8EncodeChar_small {c : Char} (small : c.toNat < 128) :
    String.utf8EncodeChar c = [UInt8.ofNat c.toNat] := by
  have one : c.val.toNat ≤ 127 := Nat.le_of_lt_succ small
  rw [String.utf8EncodeChar.eq_1, if_pos one]
  rfl

/-- All bytes of the other characters are large. -/
lemma large_of_mem_utf8EncodeChar {c : Char} (large : 128 ≤ c.toNat) {b : UInt8}
    (hb : b ∈ String.utf8EncodeChar c) : 128 ≤ b.toNat := by
  have several : ¬c.val.toNat ≤ 127 := Nat.not_le_of_gt large
  have byte {n : ℕ} (low : 128 ≤ n) (high : n < 256) : 128 ≤ (UInt8.ofNat n).toNat := by
    rwa [UInt8.toNat_ofNat_of_lt' high]
  rw [String.utf8EncodeChar.eq_1, if_neg several] at hb
  generalize c.val.toNat = n at hb several
  split_ifs at hb
  all_goals
    simp only [List.mem_cons, List.not_mem_nil, or_false] at hb
  · rcases hb with rfl | rfl
    all_goals exact byte (by omega) (by omega)
  · rcases hb with rfl | rfl | rfl
    all_goals exact byte (by omega) (by omega)
  · rcases hb with rfl | rfl | rfl | rfl
    all_goals exact byte (by omega) (by omega)

/-- A small byte at the end of a text is its last character. -/
lemma exists_of_ofText_eq_concat {s : String} {c : Char} (small : c.toNat < 128)
    (h : ofText s = rest ++ [UInt8.ofNat c.toNat]) : ∃ t, s = t ++ String.ofList [c] ∧ rest = ofText t := by
  have code {d : Char} (hd : d.toNat < 128) : (UInt8.ofNat d.toNat).toNat = d.toNat :=
    UInt8.toNat_ofNat_of_lt' (Nat.lt_trans hd (by decide))
  rw [ofText_eq_flatMap] at h
  rcases List.eq_nil_or_concat' s.toList with empty | ⟨front, last, chars⟩
  · rw [empty] at h
    exact absurd h.symm (List.append_ne_nil_of_right_ne_nil rest (List.cons_ne_nil _ _))
  obtain ⟨a, tail, written, -⟩ := decodeFirst_utf8EncodeChar last []
  obtain ⟨init, final, ends⟩ := (List.eq_nil_or_concat' (String.utf8EncodeChar last)).resolve_left
    (by rw [written]; exact List.cons_ne_nil _ _)
  rw [chars, List.flatMap_append, List.flatMap_singleton, ends, ← List.append_assoc] at h
  obtain ⟨before, same⟩ := List.append_inj' h rfl
  obtain rfl := List.singleton_inj.mp same
  have one : last.toNat < 128 := by
    by_contra large
    have byte := large_of_mem_utf8EncodeChar (Nat.not_lt.mp large)
      (ends ▸ List.mem_append_right init (List.mem_singleton_self _))
    rw [code small] at byte
    omega
  have bytes : [] ++ [UInt8.ofNat last.toNat] = init ++ [UInt8.ofNat c.toNat] :=
    (utf8EncodeChar_small one).symm.trans ends
  obtain ⟨rfl, same⟩ := List.append_inj' bytes rfl
  have equal := congrArg UInt8.toNat (List.singleton_inj.mp same)
  rw [code one, code small] at equal
  obtain rfl := Char.toNat_inj.mp equal
  refine ⟨String.ofList front, ?_, ?_⟩
  · rw [← String.ofList_append, ← chars, String.ofList_toList]
  · rw [ofText_eq_flatMap, String.toList_ofList, ← before, List.append_nil]

end Gateway.Bytes
