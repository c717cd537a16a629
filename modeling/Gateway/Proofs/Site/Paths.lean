import Gateway.Proofs.Http.WellFormed
import Gateway.Proofs.Route.Relative
import Gateway.Proofs.Text.Listing
import Gateway.Proofs.Text.Percent
import Gateway.Site.Files

/-! Paths below a directory, decoded. A name that is put behind a slash leaves the names before it as they
are, and is decoded on its own. -/
namespace Gateway

/-- A name that a file of a directory can have. -/
structure IsFileName (name : String) : Prop where
  ne_empty : name ≠ ""
  ne_dot : name ≠ "."
  ne_dots : name ≠ ".."
  noSlash : '/' ∉ name.toList

/-- The name can be looked up. -/
def IsSpeakable (name : String) : Prop := '\x00' ∉ name.toList ∧ name.utf8ByteSize ≤ 255

instance (name : String) : Decidable (IsSpeakable name) := inferInstanceAs (Decidable (_ ∧ _))

namespace FileTree
variable {t : FileTree} {path root names : List String} {content : Bytes} {cs ds : List Char} {name : String}

/-- All names can be looked up, and no file is above another one. -/
structure IsSound (t : FileTree) : Prop where
  speakable : ∀ f ∈ t.files, ∀ n ∈ f.1, IsSpeakable n
  leaves : ∀ f ∈ t.files, t.isDirectory f.1 = false

lemma mem_of_file? (h : t.file? path = some content) : (path, content) ∈ t.files := by
  obtain ⟨before, after, parts, -⟩ := List.lookup_eq_some_iff.mp h
  rw [parts]
  exact List.mem_append_right _ List.mem_cons_self

/-- The names above a file can be looked up, like its own. -/
lemma IsSound.speakable_of_isDirectory (h : t.IsSound) (directory : t.isDirectory (root ++ names) = true) :
    ∀ n ∈ names, IsSpeakable n := by
  intro n hn
  unfold isDirectory at directory
  rw [Bool.or_eq_true, List.isEmpty_iff, List.any_eq_true] at directory
  rcases directory with empty | ⟨f, hf, above⟩
  · rw [(List.append_eq_nil_iff.mp empty).2] at hn
    cases hn
  · rw [Bool.and_eq_true, List.isPrefixOf_iff_prefix] at above
    exact h.speakable f hf n (above.1.subset (List.mem_append_right _ hn))

lemma IsSound.speakable_of_file? (h : t.IsSound) (file : t.file? (root ++ names) = some content) :
    ∀ n ∈ names, IsSpeakable n :=
  fun n hn => h.speakable _ (mem_of_file? file) n (List.mem_append_right _ hn)

/-- The segments that characters make when they do not start at the root. -/
def pieces (cs : List Char) : List String :=
  ((cs.splitOn '/').map String.ofList).filter fun s => s ≠ "" && s ≠ "."

lemma segments_of_unrooted {path : String} (unrooted : path.toList.head? ≠ some '/') :
    segments path = pieces path.toList := by
  rw [segments, if_neg unrooted]
  rfl

lemma pieces_append_slash (cs ds : List Char) : pieces (cs ++ '/' :: ds) = pieces cs ++ pieces ds := by
  rw [pieces, List.splitOn_append_cons_self, List.map_append, List.filter_append]
  rfl

/-- A file name is a segment of its own. -/
lemma pieces_of_isFileName (h : IsFileName name) : pieces name.toList = [name] := by
  have kept : (name ≠ "" && name ≠ ".") = true := by simp [h.ne_empty, h.ne_dot]
  rw [pieces, List.splitOn_eq_singleton h.noSlash, List.map_singleton, String.ofList_toList,
    List.filter_singleton, kept]
  rfl

/-- No segment is longer than what it is a segment of. -/
lemma utf8ByteSize_le_of_mem_pieces {text : String} (h : name ∈ pieces text.toList) :
    name.utf8ByteSize ≤ text.utf8ByteSize := by
  obtain ⟨piece, hp, rfl⟩ := List.mem_map.mp (List.mem_filter.mp h).1
  obtain ⟨-, before, after, parts, -⟩ := exists_of_mem_splitOn hp
  have whole : text = String.ofList before ++ String.ofList piece ++ String.ofList after := by
    rw [← String.ofList_append, ← String.ofList_append, ← parts, String.ofList_toList]
  rw [whole, String.utf8ByteSize_append, String.utf8ByteSize_append]
  omega

end FileTree

namespace Files
variable {t : FileTree} {root names names' : List String} {path base name : String}

lemma isUnspeakable_eq_false (h : ∀ n ∈ names, IsSpeakable n) : isUnspeakable t root names = false := by
  have short (directory : List String) : hasLongName t directory names = false := by
    induction names generalizing directory with
    | nil => rfl
    | cons n rest ih =>
      have fits := (h n List.mem_cons_self).2
      rw [hasLongName, ih (fun m hm => h m (List.mem_cons_of_mem _ hm)), decide_eq_false (by omega)]
      exact Bool.and_false _
  rw [isUnspeakable, short, Bool.or_false, List.any_eq_false]
  intro n hn nul
  exact (h n hn).1 (List.contains_iff_mem.mp nul)

/-- The part of a path that is looked up. -/
def unrooted (path : String) : String := String.ofList (path.toList.dropWhile (· = '/'))

/-- A path leads below a directory by its names if it is decoded to a text that stays there. -/
lemma decodedPath?_eq_some_iff : decodedPath? path = some names ↔ ∃ text,
    percentDecode (Bytes.ofText (unrooted path)) = Bytes.ofText text ∧ text.toList.head? ≠ some '/' ∧
      ".." ∉ names ∧ names = FileTree.pieces text.toList := by
  change (Bytes.text? (percentDecode (Bytes.ofText (unrooted path)))).bind components? = some names ↔ _
  rw [Option.bind_eq_some_iff]
  refine exists_congr fun text => ?_
  have decoded : Bytes.text? (percentDecode (Bytes.ofText (unrooted path))) = some text ↔
      percentDecode (Bytes.ofText (unrooted path)) = Bytes.ofText text := by
    constructor
    · exact fun read => (Bytes.ofText_of_text? read).symm
    · intro same
      rw [same, Bytes.text?_ofText]
  refine and_congr decoded ?_
  rw [components?]
  split
  · next refused =>
    refine iff_of_false nofun fun ⟨unrooted, free, same⟩ => refused.elim unrooted fun up => free ?_
    rwa [same, ← FileTree.segments_of_unrooted unrooted]
  · next accepted =>
    obtain ⟨unrooted, free⟩ := not_or.mp accepted
    rw [FileTree.segments_of_unrooted unrooted] at free ⊢
    rw [Option.some_inj]
    exact ⟨fun same => ⟨unrooted, same ▸ free, same.symm⟩, fun h => h.2.2.symm⟩

/-- A name that is put behind a slash stays behind what is left of the path, and that is empty or ends in a
slash as well. -/
lemma unrooted_append (slash : endsWithSlash base = true) (bare : '/' ∉ name.toList) :
    unrooted (base ++ name) = unrooted base ++ name ∧
      (unrooted base = "" ∨ ∃ more, unrooted base = more ++ "/") := by
  rw [endsWithSlash, beq_iff_eq] at slash
  have own : name.toList.dropWhile (· = '/') = name.toList := by
    cases chars : name.toList with
    | nil => rfl
    | cons c rest =>
      refine List.dropWhile_cons_of_neg fun first => bare ?_
      rw [chars, ← of_decide_eq_true first]
      exact List.mem_cons_self
  unfold unrooted
  rw [String.toList_append, List.dropWhile_append]
  by_cases empty : base.toList.dropWhile (· = '/') = []
  · rw [empty, own, List.isEmpty_nil, if_pos rfl, String.ofList_toList]
    exact ⟨String.empty_append.symm, .inl rfl⟩
  · rw [if_neg (mt List.isEmpty_iff.mp empty), String.ofList_append, String.ofList_toList]
    refine ⟨rfl, .inr ?_⟩
    obtain ⟨front, whole⟩ := List.dropWhile_suffix (l := base.toList) (· = '/')
    rw [← whole, List.getLast?_append_of_ne_nil _ empty] at slash
    obtain ⟨more, chars⟩ := List.getLast?_eq_some_iff.mp slash
    exact ⟨String.ofList more, by rw [chars, String.ofList_append]⟩

/-- Behind a slash a name is decoded on its own. The text before it is read as without the name, and is
empty or ends in a slash. -/
lemma exists_front (slash : endsWithSlash base = true) (found : decodedPath? base = some names)
    (bare : '/' ∉ name.toList) : ∃ front, front.toList.head? ≠ some '/' ∧ ".." ∉ names ∧
      names = FileTree.pieces front.toList ∧ (front = "" ∨ ∃ more, front = more ++ "/") ∧
        percentDecode (Bytes.ofText (unrooted (base ++ name))) =
          Bytes.ofText front ++ percentDecode (Bytes.ofText name) := by
  obtain ⟨front, decoded, head, up, rfl⟩ := decodedPath?_eq_some_iff.mp found
  obtain ⟨parts, left⟩ := unrooted_append slash bare
  refine ⟨front, head, up, rfl, ?_⟩
  rw [parts, Bytes.ofText_append]
  rcases left with empty | ⟨more, ends⟩
  · rw [empty] at decoded ⊢
    have nothing : Bytes.ofText front = Bytes.ofText "" := decoded.symm
    rw [← nothing]
    have size := congrArg List.length nothing
    rw [Bytes.ofText_length, Bytes.ofText_length] at size
    have none : front = "" := String.utf8ByteSize_eq_zero_iff.mp size
    exact ⟨.inl none, by rw [none]; rfl⟩
  · have slash : Bytes.ofText "/" = [0x2F] := rfl
    rw [ends, Bytes.ofText_append, slash, percentDecode_append_slash] at decoded
    obtain ⟨start, rfl, -⟩ := Bytes.exists_of_ofText_eq_concat (c := '/') (by decide) decoded.symm
    refine ⟨.inr ⟨start, rfl⟩, ?_⟩
    rw [← decoded, ends, Bytes.ofText_append, slash, List.append_assoc, List.append_assoc]
    exact percentDecode_append_slash _ _

/-- The names of a text that ends in a slash come before those of what is put behind it. -/
lemma pieces_append {front : String} (ends : front = "" ∨ ∃ more, front = more ++ "/") (back : String) :
    FileTree.pieces (front ++ back).toList =
      FileTree.pieces front.toList ++ FileTree.pieces back.toList := by
  rcases ends with rfl | ⟨more, rfl⟩
  · rw [String.empty_append]
    rfl
  · have chars (s : String) : (more ++ "/" ++ s).toList = more.toList ++ '/' :: s.toList := by
      rw [String.toList_append, String.toList_append, List.append_assoc]
      rfl
    have own := chars ""
    rw [String.append_empty] at own
    rw [chars, own, FileTree.pieces_append_slash, FileTree.pieces_append_slash]
    exact congrArg (· ++ _) (List.append_nil _).symm

/-- Whatever is decoded behind a directory's path makes further names. -/
lemma names_of_decodedPath? (slash : endsWithSlash base = true) (found : decodedPath? base = some names)
    (bare : '/' ∉ name.toList) (h : decodedPath? (base ++ name) = some names') : ∃ text,
      percentDecode (Bytes.ofText name) = Bytes.ofText text ∧
        names' = names ++ FileTree.pieces text.toList := by
  obtain ⟨front, -, -, rfl, ends, decoded⟩ := exists_front slash found bare
  obtain ⟨whole, same, -, -, rfl⟩ := decodedPath?_eq_some_iff.mp h
  obtain ⟨text, rfl, own⟩ := Bytes.exists_of_ofText_eq_append (same.symm.trans decoded)
  exact ⟨text, own, pieces_append ends text⟩

/-- A file name that decoding leaves as it is names the file in the directory. -/
lemma decodedPath?_of_plain (slash : endsWithSlash base = true) (found : decodedPath? base = some names)
    (h : IsFileName name) (plain : percentDecode (Bytes.ofText name) = Bytes.ofText name) :
    decodedPath? (base ++ name) = some (names ++ [name]) := by
  obtain ⟨front, head, up, rfl, ends, decoded⟩ := exists_front slash found h.noSlash
  rw [plain, ← Bytes.ofText_append] at decoded
  refine decodedPath?_eq_some_iff.mpr ⟨front ++ name, decoded, ?_, ?_, ?_⟩
  · rw [String.toList_append, List.head?_append]
    cases first : front.toList.head? with
    | some c =>
      rw [first] at head
      exact head
    | none => exact fun slash => h.noSlash (List.mem_of_mem_head? slash)
  · rw [List.mem_append, List.mem_singleton, not_or]
    exact ⟨up, h.ne_dots.symm⟩
  · rw [pieces_append ends, FileTree.pieces_of_isFileName h]

end Files

namespace Pattern
variable {p : Pattern} {path text : String} {uri : Uri}

/-- A target of whose path something is left below a pattern has a path of its own. -/
lemma isPath_of_isAbove (above : IsAbove p.text uri.path) (read : Uri.parse text = .ok uri)
    (ne : p.relativePath uri.path ≠ "") : Uri.IsPath uri.path := by
  obtain ⟨c, rest, chars⟩ := List.exists_cons_of_ne_nil (mt String.toList_eq_nil_iff.mp ne)
  refine Uri.isPath_of_parse read fun empty => ?_
  have mem := mem_relativePath above (chars ▸ List.mem_cons_self)
  rw [empty] at mem
  cases mem

/-- What is left is a path from the root that can be read again. -/
lemma isPath_relativePath (above : IsAbove p.text uri.path) (read : Uri.parse text = .ok uri)
    (ne : p.relativePath uri.path ≠ "") : Uri.IsPath (p.relativePath uri.path) ∧
      (p.relativePath uri.path).toList.head? = some '/' ∧
        (p.relativePath uri.path).utf8ByteSize ≤ Uri.maxLength := by
  have whole := isPath_of_isAbove above read ne
  have formed := Uri.isWellFormed_of_parse read
  refine ⟨⟨ne, fun c hc => whole.2 c (mem_relativePath above hc)⟩,
    (relativePath_eq_empty_or above).resolve_left ne, ?_⟩
  have shorter : (p.relativePath uri.path).utf8ByteSize ≤ uri.path.utf8ByteSize := by
    by_cases root : p.text = "/"
    · rw [relativePath_root root]
    · have parts := congrArg String.utf8ByteSize (append_relativePath above root)
      rw [String.utf8ByteSize_append] at parts
      omega
  have has : uri.hasPath = true := by
    by_contra bare
    exact whole.1 (formed.bare (Bool.not_eq_true _ ▸ bare))
  have size := formed.size (PathQuery.text ⟨uri.path, uri.query⟩) (by rw [Uri.pathQueryText?, if_pos has]; rfl)
  refine shorter.trans (le_trans ?_ size)
  unfold PathQuery.text
  dsimp only
  split
  · rw [String.utf8ByteSize_append, String.utf8ByteSize_append]
    omega
  · exact le_rfl

/-- What is left ends as the path does. -/
lemma endsWithSlash_relativePath (above : IsAbove p.text path) (ne : p.relativePath path ≠ "") :
    Files.endsWithSlash (p.relativePath path) = Files.endsWithSlash path := by
  by_cases root : p.text = "/"
  · rw [relativePath_root root]
  · have parts := append_relativePath above root
    rw [Files.endsWithSlash, Files.endsWithSlash]
    conv_rhs => rw [← parts, String.toList_append,
      List.getLast?_append_of_ne_nil _ (mt String.toList_eq_nil_iff.mp ne)]

end Pattern
end Gateway
