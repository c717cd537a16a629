import Gateway.Http.HopByHop
import Gateway.Proofs.Text.Printable

/-! The values of a header name after each change of the headers, and texts that make header
values. -/
namespace Gateway

section Values
variable {s : String} {b c : Bytes}

lemma isHeaderValue_append :
    isHeaderValue (b ++ c) = (isHeaderValue b && isHeaderValue c) := List.all_append

lemma Bytes.isVisible_append : isVisible (b ++ c) = (isVisible b && isVisible c) := List.all_append

lemma Bytes.visibleText?_eq_some_iff : visibleText? b = some s ↔ isVisible b = true ∧ b = ofText s := by
  rw [visibleText?, Option.ite_none_right_eq_some]
  refine and_congr_right fun _ => ⟨fun read => (ofText_of_text? read).symm, ?_⟩
  rintro rfl
  exact text?_ofText s

/-- Values that can be read as text are header values. -/
lemma isHeaderValue_of_isVisible (h : Bytes.isVisible b = true) : isHeaderValue b = true := by
  rw [isHeaderValue, List.all_eq_true]
  intro x hx
  have range := List.all_eq_true.mp h x hx
  simp only [Bool.or_eq_true, Bool.and_eq_true, decide_eq_true_eq] at range ⊢
  refine range.imp_right fun ⟨low, high⟩ => ⟨low, ?_⟩
  rintro rfl
  exact absurd high (by decide)

/-- What is read as text can be written again. -/
lemma isHeaderValue_of_visibleText? (h : Bytes.visibleText? b = some s) :
    isHeaderValue (Bytes.ofText s) = true := by
  obtain ⟨visible, rfl⟩ := Bytes.visibleText?_eq_some_iff.mp h
  exact isHeaderValue_of_isVisible visible

namespace IsPrintable

lemma isVisible (h : IsPrintable s) : Bytes.isVisible (Bytes.ofText s) = true := by
  rw [h.ofText_eq, Bytes.isVisible, List.all_map, List.all_eq_true]
  intro c hc
  have range := h c hc
  rw [isPrintableChar, Bool.and_eq_true, decide_eq_true_eq, decide_eq_true_eq] at range
  have small : (UInt8.ofNat c.toNat).toNat = c.toNat := by
    rw [UInt8.toNat_ofNat']
    omega
  have low : 0x20 ≤ UInt8.ofNat c.toNat := UInt8.le_iff_toNat_le.mpr (by rw [small]; exact range.1)
  have high : UInt8.ofNat c.toNat ≤ 0x7E := UInt8.le_iff_toNat_le.mpr (by rw [small]; exact range.2)
  simp [low, high]

lemma isHeaderValue (h : IsPrintable s) : isHeaderValue (Bytes.ofText s) = true :=
  isHeaderValue_of_isVisible h.isVisible

lemma visibleText?_ofText (h : IsPrintable s) : Bytes.visibleText? (Bytes.ofText s) = some s :=
  Bytes.visibleText?_eq_some_iff.mpr ⟨h.isVisible, rfl⟩

end IsPrintable

end Values

namespace Headers
variable {h : Headers} {name m : String} {names : List String} {v : Bytes} {text : String}

@[simp] lemma values_removeAll :
    (h.removeAll names).values name = if name ∈ names then [] else h.values name := by
  simp only [removeAll, values, List.filter_filter]
  split
  · next listed =>
    rw [List.map_eq_nil_iff, List.filter_eq_nil_iff]
    rintro e - he
    simp only [Bool.and_eq_true, decide_eq_true_eq] at he
    exact he.2 (he.1 ▸ listed)
  · next free =>
    congr 1
    refine List.filter_congr fun e _ => ?_
    by_cases he : e.1 = name
    · simp [he, free]
    · simp [he]

/-- A text that makes no header value is left out. -/
lemma values_insertText? : (h.insertText? m text).values name =
    if m = name ∧ isHeaderValue (Bytes.ofText text) = true then [Bytes.ofText text]
    else h.values name := by
  unfold insertText? headerValue?
  dsimp only
  by_cases valid : isHeaderValue (Bytes.ofText text) = true
  · rw [if_pos valid]
    by_cases same : m = name
    · rw [if_pos ⟨same, valid⟩, same]
      exact values_insert_self ..
    · rw [if_neg fun both => same both.1]
      exact values_insert_of_ne h same _
  · rw [if_neg valid, if_neg fun both => valid both.2]

lemma values_insertIfAbsent_of_ne (ne : m ≠ name) :
    (h.insertIfAbsent m v).values name = h.values name := by
  unfold insertIfAbsent
  split
  · rfl
  · rw [values_append, if_neg ne, List.append_nil]

lemma values_eq_nil_iff : h.values name = [] ↔ h.has name = false := by
  simp [values, has, List.filter_eq_nil_iff, List.any_eq_false]

/-- A name takes the values it has on top, and where it has none there it keeps its own. -/
theorem values_overlay {top : Headers} : (h.overlay top).values name =
    if top.values name = [] then h.values name else top.values name := by
  have below : ((h.entries.filter fun e => !top.has e.1).filter (·.1 = name)).map (·.2) =
      if top.values name = [] then h.values name else [] := by
    rw [List.filter_filter]
    split
    · next free =>
      rw [values_eq_nil_iff] at free
      refine congrArg _ (List.filter_congr fun e _ => ?_)
      by_cases same : e.1 = name
      · simp [same, free]
      · simp [same]
    · next taken =>
      rw [values_eq_nil_iff, Bool.not_eq_false] at taken
      rw [List.map_eq_nil_iff, List.filter_eq_nil_iff]
      rintro e - both
      simp only [Bool.and_eq_true, decide_eq_true_eq, Bool.not_eq_true'] at both
      rw [both.1, taken] at both
      exact Bool.noConfusion both.2
  rw [values, overlay, List.filter_append, List.map_append, below]
  split
  · next free => exact (congrArg _ free).trans (List.append_nil _)
  · rfl

end Headers

namespace HopByHop
variable {h : Headers} {name authority : String}

/-- Stripping takes whole names: the fixed ones and those that are listed. -/
theorem values_strip : (strip h).values name =
    if name ∈ fixedNames ∨ name ∈ listedNames h then [] else h.values name := by
  rw [strip, Headers.values_removeAll, Headers.values_removeAll]
  by_cases fixed : name ∈ fixedNames
  · rw [if_pos fixed, if_pos (.inl fixed)]
  · simp only [if_neg fixed, or_iff_right fixed]

lemma values_setHost_of_ne (ne : name ≠ "host") :
    (setHost h authority).values name = h.values name :=
  Headers.values_insertText?.trans (if_neg fun both => ne both.1.symm)

lemma listedNames_congr {g : Headers} (same : g.values "connection" = h.values "connection") :
    listedNames g = listedNames h := by
  rw [listedNames, listedNames, same]

lemma listedNames_eq {value : String} (hv : IsPrintable value)
    (only : h.values "connection" = [Bytes.ofText value]) : listedNames h = namesIn value := by
  simp [listedNames, only, hv.visibleText?_ofText]

end HopByHop
end Gateway
