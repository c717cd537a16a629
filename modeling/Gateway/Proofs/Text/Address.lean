import Mathlib.Algebra.Group.Nat.Defs
import Gateway.Proofs.Text.Printable

/-! Reading addresses back from their texts: numbers in any base up to sixteen, the short kind of address, and
the long kind up to the bracket that closes it. -/
namespace Gateway

lemma takeWhile_append_of_ends {α : Type} {p : α → Bool} {l rest : List α} (all : ∀ a ∈ l, p a = true)
    (ends : ∀ a ∈ rest.head?, p a = false) : (l ++ rest).takeWhile p = l := by
  rw [List.takeWhile_append_of_pos all]
  cases rest with
  | nil => rw [List.takeWhile_nil, List.append_nil]
  | cons a rest => rw [List.takeWhile_cons_of_neg (by simpa using ends a rfl), List.append_nil]

lemma drop_length_takeWhile {α : Type} (p : α → Bool) (l : List α) :
    l.drop (l.takeWhile p).length = l.dropWhile p := by
  induction l with
  | nil => rfl
  | cons a l ih =>
    rw [List.takeWhile_cons, List.dropWhile_cons]
    split
    · exact ih
    · rfl

namespace SocketAddress
variable {radix bound n : ℕ} {most : Option ℕ} {zero : Bool} {c : Char} {cs rest : List Char}

/-! ### Numbers -/

lemma digitValue?_digitChar (range : radix ≤ 16) (h : n < radix) : digitValue? radix n.digitChar = some n := by
  have value : ∀ m < 16, Hex.value? m.digitChar = some m := by decide
  rw [digitValue?, value n (by omega), Option.filter_some, if_pos (by simpa using h)]

/-- What digits stand for, read from the left. -/
def valueOf (radix : ℕ) (digits : List Char) : ℕ :=
  digits.foldl (fun n c => n * radix + (digitValue? radix c).getD 0) 0

lemma valueOf_toDigits (two : 1 < radix) (range : radix ≤ 16) (n : ℕ) :
    valueOf radix (Nat.toDigits radix n) = n := by
  have last {m : ℕ} (h : m < radix) (digits : List Char) :
      valueOf radix (digits ++ [m.digitChar]) = valueOf radix digits * radix + m := by
    rw [valueOf, List.foldl_append, List.foldl_cons, List.foldl_nil, digitValue?_digitChar range h]
    rfl
  induction n using Nat.strongRecOn with
  | ind n ih =>
    rw [Nat.toDigits_eq_if two]
    split
    · next small => exact (last small []).trans (by simp [valueOf])
    · next large =>
      rw [last (Nat.mod_lt _ (by omega)), ih (n / radix) (Nat.div_lt_self (by omega) two)]
      exact Nat.div_add_mod' n radix

lemma head?_toDigits (two : 1 < radix) (range : radix ≤ 16) (pos : n ≠ 0) :
    (Nat.toDigits radix n).head? ≠ some '0' := by
  induction n using Nat.strongRecOn with
  | ind n ih =>
    rw [Nat.toDigits_eq_if two]
    split
    · simpa using pos
    · next large =>
      have left : n / radix ≠ 0 := by
        rw [Ne, Nat.div_eq_zero_iff]
        omega
      have shorter := ih (n / radix) (Nat.div_lt_self (by omega) two) left
      obtain ⟨d, ds, digits⟩ := List.exists_cons_of_ne_nil (@Nat.toDigits_ne_nil (n / radix) radix)
      rw [digits] at shorter ⊢
      exact shorter

lemma isSome_digitValue? (two : 1 < radix) (range : radix ≤ 16) :
    ∀ c ∈ Nat.toDigits radix n, (digitValue? radix c).isSome = true :=
  forall_mem_toDigits two (fun m hm => by rw [digitValue?_digitChar range hm]; rfl) n

/-- A number that was written is read back, up to where its digits end. -/
theorem readNumber_toDigits (two : 1 < radix) (range : radix ≤ 16) (small : n < bound)
    (fits : ∀ k ∈ most, 0 < k ∧ n < radix ^ k) (ends : ∀ c ∈ rest.head?, digitValue? radix c = none) :
    readNumber radix most zero bound (Nat.toDigits radix n ++ rest) = some (n, rest) := by
  have digits : (Nat.toDigits radix n ++ rest).takeWhile (fun c => (digitValue? radix c).isSome) =
      Nat.toDigits radix n :=
    takeWhile_append_of_ends (isSome_digitValue? two range) fun c hc => by rw [ends c hc]; rfl
  have nonempty : Nat.toDigits radix n ≠ [] := Nat.toDigits_ne_nil
  have room : most.any (fun k => decide ((Nat.toDigits radix n).length > k)) = false := by
    rw [Option.any_eq_false]
    intro k hk
    obtain ⟨pos, few⟩ := fits k hk
    exact decide_eq_false (Nat.not_lt.mpr ((Nat.length_toDigits_le_iff two pos).mpr few))
  -- zero itself is written with one digit, so a leading zero is never one too many
  have leading : (decide ((Nat.toDigits radix n).length > 1) &&
      (Nat.toDigits radix n).head? == some '0') = false := by
    by_cases zero : n = 0
    · rw [zero, Nat.toDigits_zero]
      rfl
    · rw [beq_false_of_ne (head?_toDigits two range zero), Bool.and_false]
  have value : (Nat.toDigits radix n).foldl (fun n c => n * radix + (digitValue? radix c).getD 0) 0 = n :=
    valueOf_toDigits two range n
  unfold readNumber
  simp only [digits, value, List.drop_left]
  rw [if_neg]
  simp only [nonempty, room, Bool.and_assoc, leading, Bool.and_false, decide_false, Bool.or_false, Bool.false_or,
    decide_eq_true_eq]
  exact Nat.not_le.mpr small

lemma readNumber_rest {value : ℕ} (h : readNumber radix most zero bound cs = some (value, rest)) :
    rest = cs.dropWhile fun c => (digitValue? radix c).isSome := by
  unfold readNumber at h
  dsimp only at h
  split at h
  · cases h
  · obtain ⟨-, rfl⟩ := Prod.mk.inj (Option.some.inj h)
    exact drop_length_takeWhile _ cs

lemma readNumber_eq_none (ends : ∀ c ∈ cs.head?, digitValue? radix c = none) :
    readNumber radix most zero bound cs = none := by
  have digits : ([] ++ cs).takeWhile (fun c => (digitValue? radix c).isSome) = [] :=
    takeWhile_append_of_ends (by simp) fun c hc => by rw [ends c hc]; rfl
  rw [List.nil_append] at digits
  simp [readNumber, digits]

@[simp] lemma readChar_cons (c : Char) (cs : List Char) : readChar c (c :: cs) = some cs := if_pos rfl

lemma readChar_of_ne (ne : cs.head? ≠ some c) : readChar c cs = none := by
  cases cs with
  | nil => rfl
  | cons d cs => exact if_neg fun same => ne (congrArg some same)

/-! ### The short kind -/

lemma readOctet_text (o : UInt8) (ends : ∀ c ∈ rest.head?, digitValue? 10 c = none) :
    readOctet (Nat.toDigits 10 o.toNat ++ rest) = some (o, rest) := by
  have small := o.toNat_lt
  have read : readNumber 10 (some 3) false 256 (Nat.toDigits 10 o.toNat ++ rest) = some (o.toNat, rest) :=
    readNumber_toDigits (by decide) (by decide) small (by rintro k ⟨⟩; omega) ends
  rw [readOctet, read]
  exact congrArg (fun x => some (x, rest)) UInt8.ofNat_toNat

lemma toList_octetsText (a b c d : UInt8) : (IpAddress.octetsText [a, b, c, d]).toList =
    Nat.toDigits 10 a.toNat ++ '.' :: (Nat.toDigits 10 b.toNat ++ '.' :: (Nat.toDigits 10 c.toNat ++
      '.' :: Nat.toDigits 10 d.toNat)) := by
  simp [IpAddress.octetsText]

/-- An address of the short kind is read back. -/
theorem readV4_octetsText (a b c d : UInt8) (ends : ∀ c ∈ rest.head?, digitValue? 10 c = none) :
    readV4 ((IpAddress.octetsText [a, b, c, d]).toList ++ rest) = some (#v[a, b, c, d], rest) := by
  have dot {cs : List Char} : ∀ c ∈ ('.' :: cs).head?, digitValue? 10 c = none := by
    rintro c ⟨⟩
    decide
  simp only [toList_octetsText, List.append_assoc, List.cons_append, readV4, readOctet_text _ dot,
    readOctet_text _ ends, readChar_cons, Option.bind_eq_bind, Option.bind_some, Option.pure_def]

/-- A text without a dot up to a colon or a bracket is not of the short kind. -/
lemma readV4_eq_none (noDot : ∀ c ∈ cs, c ≠ '.') (ends : ∀ c ∈ rest.head?, c = ':' ∨ c = ']') :
    readV4 (cs ++ rest) = none := by
  unfold readV4 readOctet
  cases read : readNumber 10 (some 3) false 256 (cs ++ rest) with
  | none => rfl
  | some p =>
    have stop : p.2.head? ≠ some '.' := by
      rw [readNumber_rest read, List.dropWhile_append]
      split
      · cases rest with
        | nil => exact Option.some_ne_none '.' |>.symm
        | cons c rest =>
          obtain rfl | rfl := ends c rfl <;> exact fun head => nomatch head
      · next left =>
        obtain ⟨d, ds, more⟩ := List.exists_cons_of_ne_nil fun none => left (List.isEmpty_iff.mpr none)
        rw [more]
        have member : d ∈ cs := (List.dropWhile_suffix _).subset (more ▸ List.mem_cons_self)
        exact fun head => noDot d member (Option.some.inj head)
    simp [readChar_of_ne stop]

/-! ### The long kind -/

/-- What ends a row of groups: the bracket that closes the address, or a double colon. -/
def Closes (cs : List Char) : Prop := ∃ r, cs = ']' :: r ∨ cs = ':' :: ':' :: r

lemma closes_bracket (r : List Char) : Closes (']' :: r) := ⟨r, .inl rfl⟩

lemma closes_colons (r : List Char) : Closes (':' :: ':' :: r) := ⟨r, .inr rfl⟩

/-- Groups, each with a colon before it. -/
def furtherGroups (gs : List UInt16) : List Char := gs.flatMap fun g => ':' :: Nat.toDigits 16 g.toNat

variable {room : ℕ} {first : Bool} {g : UInt16} {gs : List UInt16}

lemma toList_segmentsText_cons (g : UInt16) (gs : List UInt16) :
    (IpAddress.segmentsText (g :: gs)).toList = Nat.toDigits 16 g.toNat ++ furtherGroups gs := by
  induction gs generalizing g with
  | nil => simp [IpAddress.segmentsText, IpAddress.segmentText, furtherGroups]
  | cons h gs ih =>
    have tail := ih h
    simp only [IpAddress.segmentsText, String.toList_intercalate, List.map_cons,
      List.intercalate_cons_cons] at tail ⊢
    rw [tail]
    simp [furtherGroups, IpAddress.segmentText]

lemma Closes.ends (h : Closes rest) (gs : List UInt16) :
    ∀ c ∈ (furtherGroups gs ++ rest).head?, c = ':' ∨ c = ']' := by
  cases gs with
  | nil => obtain ⟨r, rfl | rfl⟩ := h <;> rintro c ⟨⟩ <;> decide
  | cons g gs => rintro c ⟨⟩; decide

/-- One group, after its separator. -/
lemma readGroups_group (separated : afterSeparator first cs = some (Nat.toDigits 16 g.toNat ++ rest))
    (ends : ∀ c ∈ rest.head?, c = ':' ∨ c = ']') :
    readGroups (room + 1) first cs = (g :: (readGroups room false rest).1, (readGroups room false rest).2) := by
  have noDot : ∀ c ∈ Nat.toDigits 16 g.toNat, c ≠ '.' := forall_mem_toDigits (by decide) (by decide) _
  have noDigit : ∀ c ∈ rest.head?, digitValue? 16 c = none := by
    intro c hc
    obtain rfl | rfl := ends c hc <;> decide
  have small := g.toNat_lt
  have read : readNumber 16 (some 4) true 65536 (Nat.toDigits 16 g.toNat ++ rest) = some (g.toNat, rest) :=
    readNumber_toDigits (by decide) (by decide) small (by rintro k ⟨⟩; omega) noDigit
  rw [readGroups, separated]
  simp [readV4_eq_none noDot ends, read]

lemma readGroups_of_closes (h : Closes cs) : readGroups room first cs = ([], false, cs) := by
  cases room with
  | zero => rfl
  | succ room =>
    have refused {r : List Char} (ends : ∀ c ∈ r.head?, c = ':' ∨ c = ']') :
        readV4 r = none ∧ readNumber 16 (some 4) true 65536 r = none := by
      refine ⟨?_, readNumber_eq_none fun c hc => ?_⟩
      · rw [← List.nil_append r]
        exact readV4_eq_none (by simp) ends
      · obtain rfl | rfl := ends c hc <;> decide
    have bracket (r : List Char) := @refused (']' :: r) fun c hc => .inr (Option.some.inj hc).symm
    have colon (r : List Char) := @refused (':' :: r) fun c hc => .inl (Option.some.inj hc).symm
    obtain ⟨r, rfl | rfl⟩ := h <;> cases first <;> simp [readGroups, afterSeparator, readChar, bracket, colon]

lemma readGroups_furtherGroups (few : gs.length ≤ room) (h : Closes rest) :
    readGroups room false (furtherGroups gs ++ rest) = (gs, false, rest) := by
  induction gs generalizing room with
  | nil => exact readGroups_of_closes h
  | cons g gs ih =>
    obtain ⟨room, rfl⟩ : ∃ k, room = k + 1 := ⟨room - 1, by simp at few; omega⟩
    have separated : afterSeparator false (furtherGroups (g :: gs) ++ rest) =
        some (Nat.toDigits 16 g.toNat ++ (furtherGroups gs ++ rest)) := by
      rw [← List.append_assoc]
      rfl
    rw [readGroups_group separated (h.ends gs), ih (Nat.le_of_succ_le_succ few)]

lemma readGroups_segmentsText (few : gs.length ≤ room) (h : Closes rest) :
    readGroups room true ((IpAddress.segmentsText gs).toList ++ rest) = (gs, false, rest) := by
  cases gs with
  | nil => exact readGroups_of_closes h
  | cons g gs =>
    obtain ⟨room, rfl⟩ : ∃ k, room = k + 1 := ⟨room - 1, by simp at few; omega⟩
    have separated : afterSeparator true ((IpAddress.segmentsText (g :: gs)).toList ++ rest) =
        some (Nat.toDigits 16 g.toNat ++ (furtherGroups gs ++ rest)) := by
      rw [toList_segmentsText_cons, List.append_assoc]
      rfl
    rw [readGroups_group separated (h.ends gs), readGroups_furtherGroups (Nat.le_of_succ_le_succ few) h]

/-- The run of zeros that is found is one. -/
lemma eq_around_longestZeros (i : ℕ) (s : List UInt16) : ∃ k, (IpAddress.longestZeros i s).1 = i + k ∧
    s = s.take k ++ List.replicate (IpAddress.longestZeros i s).2 0 ++
      s.drop (k + (IpAddress.longestZeros i s).2) := by
  induction s generalizing i with
  | nil => exact ⟨0, rfl, rfl⟩
  | cons x s ih =>
    rw [IpAddress.longestZeros]
    split
    · refine ⟨0, rfl, ?_⟩
      have run : (x :: s).takeWhile (fun a => decide (a = 0)) =
          List.replicate (IpAddress.zeroRun (x :: s)) 0 := by
        refine List.eq_replicate_iff.mpr ⟨rfl, fun a ha => ?_⟩
        exact of_decide_eq_true (List.all_eq_true.mp List.all_takeWhile a ha)
      dsimp only
      rw [List.take_zero, List.nil_append, Nat.zero_add, ← run, IpAddress.zeroRun, drop_length_takeWhile,
        List.takeWhile_append_dropWhile]
    · obtain ⟨k, start, around⟩ := ih (i + 1)
      refine ⟨k + 1, by omega, ?_⟩
      rw [List.take_succ_cons, Nat.add_right_comm, List.drop_succ_cons, List.cons_append, List.cons_append,
        ← around]

variable {v : Vector UInt16 8} {front back : List UInt16}

lemma segmentsOf?_toList (v : Vector UInt16 8) : segmentsOf? v.toList = some v := dif_pos v.length_toList

lemma readV6_of_full :
    readV6 ((IpAddress.segmentsText v.toList).toList ++ ']' :: rest) = some (v, ']' :: rest) := by
  have groups : readGroups 8 true ((IpAddress.segmentsText v.toList).toList ++ ']' :: rest) =
      (v.toList, false, ']' :: rest) :=
    readGroups_segmentsText (Nat.le_of_eq v.length_toList) (closes_bracket rest)
  simp [readV6, groups, segmentsOf?_toList]

/-- Groups around a double colon, which stands for the zeros that are missing. -/
lemma readV6_of_groups {dotted : Bool} {r : List Char}
    (before : readGroups 8 true cs = (front, false, ':' :: ':' :: r))
    (after : readGroups (7 - front.length) true r = (back, dotted, rest)) (part : front.length ≠ 8)
    (whole : v.toList = front ++ List.replicate (8 - front.length - back.length) 0 ++ back) :
    readV6 cs = some (v, rest) := by
  simp only [readV6, before, part, if_false, Bool.false_eq_true, Option.bind_eq_bind, readChar_cons,
    Option.bind_some, after, ← whole, segmentsOf?_toList, Option.pure_def]

lemma readV6_of_compressed (short : front.length + back.length < 8)
    (whole : v.toList = front ++ List.replicate (8 - front.length - back.length) 0 ++ back) :
    readV6 ((IpAddress.segmentsText front).toList ++
      ':' :: ':' :: ((IpAddress.segmentsText back).toList ++ ']' :: rest)) = some (v, ']' :: rest) :=
  readV6_of_groups (readGroups_segmentsText (by omega) (closes_colons _))
    (readGroups_segmentsText (by omega) (closes_bracket rest)) (by omega) whole

lemma pairSegment_bytes (a : UInt16) : pairSegment (a >>> 8).toUInt8 a.toUInt8 = a := by
  have small := a.toNat_lt
  rw [pairSegment, ← UInt16.toNat_inj, UInt16.toNat_ofNat', UInt16.toNat_toUInt8, UInt16.toNat_toUInt8,
    UInt16.toNat_shiftRight, Nat.shiftRight_eq_div_pow]
  change (a.toNat / 2 ^ 8 % 2 ^ 8 * 256 + a.toNat % 2 ^ 8) % 2 ^ 16 = a.toNat
  omega

/-- An address of the short kind that stands inside one of the long kind. -/
lemma readV6_of_mapped {a b : UInt16} (shape : v.toList = [0, 0, 0, 0, 0, 0xFFFF, a, b]) :
    readV6 ("::ffff:".toList ++ ((IpAddress.octetsText
      [(a >>> 8).toUInt8, a.toUInt8, (b >>> 8).toUInt8, b.toUInt8]).toList ++ ']' :: rest)) =
        some (v, ']' :: rest) := by
  have octets := readV4_octetsText (a >>> 8).toUInt8 a.toUInt8 (b >>> 8).toUInt8 b.toUInt8
    (show ∀ c ∈ (']' :: rest).head?, digitValue? 10 c = none by rintro c ⟨⟩; decide)
  generalize IpAddress.octetsText _ = text at octets ⊢
  have dotted : readGroups 6 false (':' :: (text.toList ++ ']' :: rest)) = ([a, b], true, ']' :: rest) := by
    rw [readGroups]
    simp [afterSeparator, octets, pairSegment_bytes]
  have separated : afterSeparator true ("ffff:".toList ++ (text.toList ++ ']' :: rest)) =
      some (Nat.toDigits 16 (0xFFFF : UInt16).toNat ++ ':' :: (text.toList ++ ']' :: rest)) := rfl
  have groups : readGroups 7 true ("ffff:".toList ++ (text.toList ++ ']' :: rest)) =
      ([0xFFFF, a, b], true, ']' :: rest) := by
    rw [readGroups_group separated (by rintro c ⟨⟩; decide), dotted]
  exact readV6_of_groups (readGroups_of_closes (closes_colons _)) groups (by decide) shape

/-- An address of the long kind is read back in brackets. -/
theorem readV6_v6Text (v : Vector UInt16 8) (rest : List Char) :
    readV6 ((IpAddress.v6Text v.toList).toList ++ ']' :: rest) = some (v, ']' :: rest) := by
  unfold IpAddress.v6Text
  split
  · next a b shape =>
    rw [String.toList_append, List.append_assoc]
    exact readV6_of_mapped shape
  · obtain ⟨k, start, around⟩ := eq_around_longestZeros 0 v.toList
    dsimp only
    rw [Nat.zero_add] at start
    rw [start]
    generalize (IpAddress.longestZeros 0 v.toList).2 = len at around ⊢
    split
    · next long =>
      have size := congrArg List.length around
      simp only [List.length_append, List.length_take, List.length_replicate, List.length_drop,
        Vector.length_toList] at size
      have zeros : 8 - (v.toList.take k).length - (v.toList.drop (k + len)).length = len := by
        simp only [List.length_take, List.length_drop, Vector.length_toList]
        omega
      rw [String.toList_append, String.toList_append, List.append_assoc, List.append_assoc]
      refine readV6_of_compressed ?_ ?_
      · simp only [List.length_take, List.length_drop, Vector.length_toList]
        omega
      · rw [zeros]
        exact around
    · exact readV6_of_full

/-- Dots before a bracket: the long kind is not written so. -/
lemma readV6_octetsText (a b c d : UInt8) :
    readV6 ((IpAddress.octetsText [a, b, c, d]).toList ++ ']' :: rest) = none := by
  have octets := readV4_octetsText a b c d
    (show ∀ c ∈ (']' :: rest).head?, digitValue? 10 c = none by rintro c ⟨⟩; decide)
  have groups : readGroups 8 true ((IpAddress.octetsText [a, b, c, d]).toList ++ ']' :: rest) =
      ([pairSegment a b, pairSegment c d], true, ']' :: rest) := by
    rw [readGroups]
    simp [afterSeparator, octets]
  simp [readV6, groups]

/-- Up to its first colon an address of the long kind has neither dots nor brackets. -/
lemma exists_digits (s : List UInt16) (r : List Char) : ∃ digits more,
    (IpAddress.v6Text s).toList ++ ':' :: r = digits ++ ':' :: more ∧
      ∀ c ∈ digits, c ≠ '.' ∧ c ≠ '[' := by
  have segments (gs : List UInt16) (r : List Char) : ∃ digits more,
      (IpAddress.segmentsText gs).toList ++ ':' :: r = digits ++ ':' :: more ∧
        ∀ c ∈ digits, c ≠ '.' ∧ c ≠ '[' := by
    match gs with
    | [] => exact ⟨[], r, rfl, by simp⟩
    | [g] =>
      refine ⟨Nat.toDigits 16 g.toNat, r, ?_, forall_mem_toDigits (by decide) (by decide) _⟩
      rw [toList_segmentsText_cons]
      exact congrArg (· ++ _) (List.append_nil _)
    | g :: h :: gs =>
      refine ⟨Nat.toDigits 16 g.toNat, Nat.toDigits 16 h.toNat ++ furtherGroups gs ++ ':' :: r, ?_,
        forall_mem_toDigits (by decide) (by decide) _⟩
      rw [toList_segmentsText_cons]
      simp [furtherGroups]
  unfold IpAddress.v6Text
  split
  · exact ⟨[], _, by rw [String.toList_append]; rfl, by simp⟩
  · dsimp only
    split
    · rw [String.toList_append, String.toList_append, List.append_assoc, List.append_assoc]
      exact segments _ _
    · exact segments _ _

end SocketAddress
end Gateway
