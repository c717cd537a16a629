import Gateway.Proofs.Route.Path

/-! What is left of a path below a pattern. Pattern and rest make up the path again, and the rest is
empty or begins with a slash. -/
namespace Gateway

lemma utf8ByteSize_cons (c : Char) (cs : List Char) :
    (String.ofList (c :: cs)).utf8ByteSize = c.utf8Size + (String.ofList cs).utf8ByteSize := by
  rw [String.ofList_cons, String.utf8ByteSize_append, String.utf8ByteSize_singleton]

/-- Dropping as many bytes as some characters take drops these characters. -/
lemma dropBytes_append (cs rest : List Char) :
    dropBytes (String.ofList cs).utf8ByteSize (cs ++ rest) = some rest := by
  induction cs with
  | nil => simp [dropBytes]
  | cons c cs ih =>
    have pos : 0 < c.utf8Size := c.utf8Size_pos
    have size := utf8ByteSize_cons c cs
    obtain ⟨n, hn⟩ : ∃ n, (String.ofList (c :: cs)).utf8ByteSize = n + 1 :=
      ⟨c.utf8Size + (String.ofList cs).utf8ByteSize - 1, by omega⟩
    have left : n + 1 - c.utf8Size = (String.ofList cs).utf8ByteSize := by omega
    have fits : c.utf8Size ≤ n + 1 := by omega
    rw [hn, List.cons_append, dropBytes, if_pos fits, left, ih]

namespace Pattern
variable {p : Pattern} {path : String}

lemma relativePath_root (root : p.text = "/") : p.relativePath path = path := if_pos root

lemma relativePath_of_append {rest : List Char} (ne : p.text ≠ "/")
    (h : p.text.toList ++ rest = path.toList) : p.relativePath path = String.ofList rest := by
  have own := dropBytes_append p.text.toList rest
  rw [String.ofList_toList] at own
  rw [relativePath, if_neg ne, ← h, own]

/-- Below every pattern but the root the path is the pattern and what is left of it. -/
theorem append_relativePath (h : IsAbove p.text path) (ne : p.text ≠ "/") :
    p.text ++ p.relativePath path = path := by
  obtain ⟨rest, hrest⟩ := h.prefix
  rw [relativePath_of_append ne hrest]
  apply String.toList_injective
  rw [String.toList_append, String.toList_ofList, hrest]

/-- Patterns are left at the end of a segment. -/
theorem relativePath_eq_empty_or (h : IsAbove p.text path) :
    p.relativePath path = "" ∨ (p.relativePath path).toList.head? = some '/' := by
  by_cases root : p.text = "/"
  · rw [relativePath_root root]
    obtain ⟨rest, hrest⟩ := h.prefix
    rw [root] at hrest
    rw [← hrest]
    exact .inr rfl
  · rcases h with rfl | ⟨rest, hrest⟩ | ⟨is, -⟩
    · exact .inl (relativePath_of_append root (List.append_nil _))
    · have parts : p.text.toList ++ '/' :: rest = path.toList := by
        rw [← hrest, List.append_assoc]
        rfl
      right
      rw [relativePath_of_append root parts, String.toList_ofList]
      rfl
    · exact absurd is root

/-- What is left holds no character that the path does not hold. -/
lemma mem_relativePath {c : Char} (h : IsAbove p.text path) (hc : c ∈ (p.relativePath path).toList) :
    c ∈ path.toList := by
  by_cases root : p.text = "/"
  · rwa [relativePath_root root] at hc
  · rw [← append_relativePath h root, String.toList_append]
    exact List.mem_append_right _ hc

end Pattern
end Gateway
