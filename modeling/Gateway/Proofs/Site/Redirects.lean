import Gateway.Proofs.Http.Headers
import Gateway.Proofs.Proxy.Relaying
import Gateway.Proofs.Route.Mounts
import Gateway.Proofs.Site.Paths
import Gateway.Proofs.Site.Serving

/-! Where requests for a directory without a slash at the end are redirected. The site does not know where it
is mounted, so the mount is put in front of what it says, if that can be read as text. -/
namespace Gateway

section Characters
variable {s : String}

/-- Values that can be read as text hold no character above 128. -/
lemma Bytes.small_of_isVisible (h : isVisible (ofText s) = true) : ∀ c ∈ s.toList, c.toNat < 128 := by
  intro c hc
  by_contra large
  obtain ⟨a, tail, written, -⟩ := decodeFirst_utf8EncodeChar c []
  have first : a ∈ String.utf8EncodeChar c := written ▸ List.mem_cons_self
  have low := large_of_mem_utf8EncodeChar (Nat.not_lt.mp large) first
  rw [ofText_eq_flatMap] at h
  have range := List.all_eq_true.mp h a (List.mem_flatMap.mpr ⟨c, hc, first⟩)
  simp only [Bool.or_eq_true, Bool.and_eq_true, decide_eq_true_eq, UInt8.le_iff_toNat_le,
    ← UInt8.toNat_inj, UInt8.reduceToNat] at range
  omega

lemma Uri.isPrintableChar_of_isPathChar {c : Char} (h : isPathChar c = true) (small : c.toNat < 128) :
    isPrintableChar c = true := by
  have mark : '"'.toNat = 0x22 := rfl
  simp only [isPathChar, isPrintableChar, Bool.or_eq_true, Bool.and_eq_true, decide_eq_true_eq,
    ← Char.toNat_inj, mark] at h ⊢
  omega

/-- Paths can be read as text if they are printable. -/
lemma Uri.isVisible_iff (path : ∀ c ∈ s.toList, isPathChar c = true) :
    Bytes.isVisible (Bytes.ofText s) = true ↔ IsPrintable s := by
  refine ⟨fun visible c hc => ?_, IsPrintable.isVisible⟩
  exact isPrintableChar_of_isPathChar (path c hc) (Bytes.small_of_isVisible visible c hc)

/-- Every path makes a header value. -/
lemma Uri.isHeaderValue_of_path (path : ∀ c ∈ s.toList, isPathChar c = true) :
    isHeaderValue (Bytes.ofText s) = true := by
  rw [Bytes.ofText_eq_flatMap, isHeaderValue, List.all_eq_true]
  intro b hb
  obtain ⟨c, hc, hb⟩ := List.mem_flatMap.mp hb
  simp only [Bool.or_eq_true, Bool.and_eq_true, decide_eq_true_eq, UInt8.le_iff_toNat_le,
    ← UInt8.toNat_inj, UInt8.reduceToNat, ne_eq]
  by_cases small : c.toNat < 128
  · have printable := isPrintableChar_of_isPathChar (path c hc) small
    rw [Bytes.utf8EncodeChar_small small, List.mem_singleton] at hb
    rw [isPrintableChar, Bool.and_eq_true, decide_eq_true_eq, decide_eq_true_eq] at printable
    rw [hb, UInt8.toNat_ofNat_of_lt' (Nat.lt_trans small (by decide))]
    omega
  · have large := Bytes.large_of_mem_utf8EncodeChar (Nat.not_lt.mp small) hb
    omega

end Characters

namespace Files
variable {t : FileTree} {root names : List String} {method : Method} {uri : Uri}

/-- A directory is redirected to its path with a slash. -/
lemma serve_directory (reads : method = .get ∨ method = .head) (named : decodedPath? uri.path = some names)
    (speakable : ∀ n ∈ names, IsSpeakable n) (directory : t.isDirectory (root ++ names) = true)
    (bare : endsWithSlash uri.path = false) : serve t root method uri =
      { status := .temporaryRedirect
        headers := Headers.empty.insertText "location" { uri with path := uri.path ++ "/" }.text } := by
  have served : ¬(method ≠ .get ∧ method ≠ .head) := by rwa [not_and_or, not_not, not_not]
  rw [serve, if_neg served, named]
  dsimp only
  rw [isUnspeakable_eq_false speakable, if_neg Bool.false_ne_true, if_pos directory, bare,
    if_neg Bool.false_ne_true]

end Files

namespace Site
variable {s : Site} {r : Response} {status : Status} {location : String}

/-- A redirection gets the mount in front if it can be read as text, and is left as it is otherwise. -/
lemma location_adopt (redirects : status.isRedirection = true)
    (valid : isHeaderValue (Bytes.ofText (s.mount ++ location)) = true) :
    (s.adopt { status, headers := Headers.empty.insertText "location" location } r).headers.values "location" =
      [Bytes.ofText (if Bytes.isVisible (Bytes.ofText location) then s.mount ++ location else location)] := by
  have own : (Headers.empty.insertText "location" location).values "location" = [Bytes.ofText location] :=
    Headers.values_insert_self ..
  have mounted : (s.mountLocation (Headers.empty.insertText "location" location)).values "location" =
      [Bytes.ofText (if Bytes.isVisible (Bytes.ofText location) then s.mount ++ location else location)] := by
    rw [mountLocation, Headers.firstText?, Headers.first?, own, List.head?_cons, Option.bind_some,
      Bytes.visibleText?, Bytes.text?_ofText]
    by_cases visible : Bytes.isVisible (Bytes.ofText location) = true
    · rw [if_pos visible, if_pos visible]
      exact Headers.values_insertText?.trans (if_pos ⟨rfl, valid⟩)
    · rw [if_neg visible, if_neg visible]
      exact own
  rw [adopt]
  dsimp only
  rw [if_pos redirects, Headers.values_overlay, mounted, if_neg (List.cons_ne_nil _ _)]

/-- For a directory the site answers with the path it was asked for and a slash, behind its mount if the
path is printable. -/
lemma location_answered {x : Exchange} {rest path : String} {names : List String}
    (left : x.relativePath = rest) (whole : s.mount ++ rest = path) (isPath : Uri.IsPath path)
    (isRest : Uri.IsPath rest ∧ rest.toList.head? = some '/' ∧ rest.utf8ByteSize ≤ Uri.maxLength)
    (bare : Files.endsWithSlash rest = false) (reads : x.method = .get ∨ x.method = .head)
    (named : Files.decodedPath? rest = some names) (sound : s.files.IsSound)
    (directory : s.files.isDirectory (s.root ++ names) = true) :
    (s.answered x).responseValues "location" =
      [Bytes.ofText ((if IsPrintable rest then path else rest) ++ "/")] := by
  obtain ⟨isRest, rooted, size⟩ := isRest
  have other : ¬(rest = "" ∨ rest = "/") := by
    rintro (empty | slash)
    · exact isRest.1 empty
    · rw [slash] at bare
      exact absurd bare (by decide)
  have asked : s.filePath x.relativePath = rest := by
    rw [left, filePath, if_neg other, if_neg (Bool.eq_false_iff.mp bare)]
  have parsed : Uri.parse (s.filePath x.relativePath) = .ok { path := rest } := by
    rw [asked]
    exact Uri.parse_path isRest rooted size
  have answer : Files.serve s.files s.root x.method { path := rest } = _ :=
    Files.serve_directory reads named (sound.speakable_of_isDirectory directory) directory bare
  have slash : ({ path := rest ++ "/" } : Uri).text = rest ++ "/" := by
    simp [Uri.text, PathQuery.text]
  have mounted : s.mount ++ (rest ++ "/") = path ++ "/" := by
    rw [← String.append_assoc, whole]
  have valid : isHeaderValue (Bytes.ofText (s.mount ++ (rest ++ "/"))) = true := by
    rw [mounted, Bytes.ofText_append, isHeaderValue_append, Uri.isHeaderValue_of_path isPath.2]
    rfl
  have visible : Bytes.isVisible (Bytes.ofText (rest ++ "/")) = true ↔ IsPrintable rest := by
    rw [Bytes.ofText_append, Bytes.isVisible_append, ← Uri.isVisible_iff isRest.2]
    exact iff_of_eq (congrArg (· = true) (Bool.and_true _))
  rw [answered_of_parse parsed, Exchange.responseValues]
  dsimp only
  rw [answer, slash, location_adopt rfl valid, mounted]
  by_cases printable : IsPrintable rest
  · rw [if_pos (visible.mpr printable), if_pos printable]
  · rw [if_neg (mt visible.mp printable), if_neg printable]

end Site

/-- The reference is read as one to another host. -/
def NamesHost (reference : String) : Prop := "//".toList <+: reference.toList

instance (reference : String) : Decidable (NamesHost reference) :=
  inferInstanceAs (Decidable (List.IsPrefix _ _))

/-- A slash at the end makes no other reference of a path that has none there. -/
lemma namesHost_append_slash {path : String} (bare : Files.endsWithSlash path = false) :
    NamesHost (path ++ "/") ↔ NamesHost path := by
  have chars : (path ++ "/").toList = path.toList ++ ['/'] := String.toList_append
  have last : path.toList.getLast? ≠ some '/' := by
    rw [Files.endsWithSlash] at bare
    simpa using bare
  rw [NamesHost, NamesHost, chars]
  generalize path.toList = cs at last ⊢
  rcases cs with _ | ⟨c, _ | ⟨d, rest⟩⟩
  · decide
  · have other : c ≠ '/' := by simpa using last
    simp [other.symm]
  · simp

lemma trimSlashes_of_trimmed {text : String} (trimmed : normalizePath text = text) :
    trimSlashes text = if text = "/" then "" else text := by
  by_cases root : text = "/"
  · rw [if_pos root, root]
    rfl
  · rw [if_neg root]
    by_cases empty : trimSlashChars text.toList = []
    · exact absurd (trimmed.symm.trans (normalizePath_of_trim_eq_nil empty)) root
    · rw [normalizePath, if_neg empty] at trimmed
      exact trimmed

namespace Route
variable {a : Assembly} {files : FileTree} {r : Registry} {table : RoutingTable} {route : Route}

/-- The mount goes in front of what is left of a path to make the path again. -/
lemma Mounted.mount_append {root : List String} {welcomeFile path : String} (mounted : route.Mounted a files)
    (above : Pattern.IsAbove route.pattern.text path) :
    (Site.ofDirectory files root route.pattern.text welcomeFile).mount ++ route.relativePath path = path := by
  rw [Site.ofDirectory, trimSlashes_of_trimmed mounted.trimmed, Route.relativePath]
  by_cases root : route.pattern.text = "/"
  · rw [if_pos root, Pattern.relativePath_root root, String.empty_append]
  · rw [if_neg root, Pattern.append_relativePath above root]

/-- Below the pattern of a directory something is left of every other path. -/
lemma relativePath_ne_empty {path : String} (above : Pattern.IsAbove route.pattern.text path)
    (below : path ≠ route.pattern.text) : route.relativePath path ≠ "" := by
  intro empty
  by_cases root : route.pattern.text = "/"
  · rw [Route.relativePath, Pattern.relativePath_root root] at empty
    obtain ⟨rest, chars⟩ := above.prefix
    rw [root, empty] at chars
    cases chars
  · have parts := Pattern.append_relativePath above root
    rw [Route.relativePath] at empty
    rw [empty, String.append_empty] at parts
    exact below parts.symm

/-- Only below the root the whole path is left. -/
lemma relativePath_eq_iff {path : String} (above : Pattern.IsAbove route.pattern.text path)
    (rooted : route.pattern.IsRooted) :
    route.relativePath path = path ↔ route.pattern.text = "/" := by
  refine ⟨fun same => ?_, Pattern.relativePath_root⟩
  by_contra below
  have parts : route.pattern.text ++ route.relativePath path = path := Pattern.append_relativePath above below
  have size := congrArg String.utf8ByteSize parts
  rw [same, String.utf8ByteSize_append] at size
  have empty : route.pattern.text = "" := String.utf8ByteSize_eq_zero_iff.mp (by omega)
  rw [Pattern.IsRooted, empty] at rooted
  cases rooted

/-- The path is strictly below the pattern of the route and names a directory in `root`, without a slash at
its end. -/
structure AsksDirectory (route : Route) (files : FileTree) (root names : List String) (path : String) : Prop
    where
  below : path ≠ route.pattern.text
  bare : Files.endsWithSlash path = false
  named : Files.decodedPath? (route.relativePath path) = some names
  directory : files.isDirectory (root ++ names) = true

/-- For a request strictly below the mount that names a directory without a slash there is a run, and every run
leaves one location. It repeats the path asked for with a slash if the mount is the root or what is left of the
path is printable, and otherwise only what is left. It names another host exactly if what it repeats does.
Interceptors of the response are held to leave the location. -/
theorem location_of_redirect (hr : Registry.Built a files r) (ht : r.table = some table)
    (sound : files.IsSound)
    (unaltered : ∀ i ∈ a.interceptors.atPoint .response, i.handle.Keeps (·.responseValues "location"))
    {req : Request} {text : String} (read : Uri.parse text = .ok req.uri)
    (reads : req.method = .get ∨ req.method = .head) (hx : table.resolve req.uri.path = some route)
    (kind : route.kind = .static) {root names : List String}
    (found : files.directory? route.name = some root)
    (asks : route.AsksDirectory files root names req.uri.path) (limits : ContentLimits) :
    let path := req.uri.path
    let rest := route.relativePath path
    let repeated := if route.pattern.text = "/" ∨ IsPrintable rest then path else rest
    (∃ t z, Job.Run (route.pipeline.execute (route.start limits req)) t z) ∧
      ∀ t z, Job.Run (route.pipeline.execute (route.start limits req)) t z →
        z.responseValues "location" = [Bytes.ofText (repeated ++ "/")] ∧
          (repeated = path ↔ route.pattern.text = "/" ∨ IsPrintable rest) ∧
          (NamesHost (repeated ++ "/") ↔ NamesHost repeated) := by
  intro path rest repeated
  obtain ⟨mounted, above⟩ := hr.mounted_of_resolve ht hx kind
  obtain ⟨root', welcomeFile, found', serves⟩ := mounted.serves
  obtain rfl := Option.some.inj (found.symm.trans found')
  have ne : rest ≠ "" := relativePath_ne_empty above asks.below
  have bare : Files.endsWithSlash rest = false :=
    (Pattern.endsWithSlash_relativePath above ne).trans asks.bare
  have all_left : rest = path ↔ route.pattern.text = "/" :=
    relativePath_eq_iff above ((hr.sound.table table ht).proper hx).rooted
  refine ⟨Job.exists_run _, fun t z run => ⟨?_, ?_, namesHost_append_slash ?_⟩⟩
  · rw [serves] at run
    have content (x : Exchange) : x.releaseContent.responseValues "location" = x.responseValues "location" := by
      rw [Exchange.responseValues, x.response_releaseContent, Exchange.responseValues]
    obtain ⟨m, inbound, kept⟩ := Assembly.static_keeps (f := (·.responseValues "location")) content
      (fun m list t y _ prepared => prepared.responseValues (by decide))
      (fun i hi => Pipeline.runResponseInterceptor_keeps (by decide) (unaltered i hi)) run
    obtain ⟨left, method, -⟩ := of_inbound inbound
    have answer : ((Site.ofDirectory files root route.pattern.text welcomeFile).answered m).responseValues
        "location" = [Bytes.ofText ((if IsPrintable rest then path else rest) ++ "/")] :=
      Site.location_answered left (mounted.mount_append above) (Pattern.isPath_of_isAbove above read ne)
        (Pattern.isPath_relativePath above read ne) bare (by rwa [method]) asks.named sound asks.directory
    -- under the root both ways of repeating are the same, since all of the path is left
    have same : (if IsPrintable rest then path else rest) = repeated := by
      by_cases top : route.pattern.text = "/"
      · simp only [repeated, if_pos (Or.inl top), all_left.mpr top, ite_self]
      · simp only [repeated, top, false_or]
    rw [← same]
    exact kept.trans answer
  · by_cases whole : route.pattern.text = "/" ∨ IsPrintable rest
    · exact iff_of_true (if_pos whole) whole
    · have short : repeated = rest := if_neg whole
      rw [short]
      exact iff_of_false (mt all_left.mp (not_or.mp whole).1) whole
  · unfold repeated
    split
    · exact asks.bare
    · exact bare

/-- Under the root, a path that begins with two slashes is repeated as the name of another host. Below another
mount, a path that is not printable is repeated without the mount. -/
theorem location_of_doubled_slash :
    let files : FileTree := ⟨[(["site", "docs", "index.html"], []), (["site", "é", "index.html"], [])]⟩
    let top := siteRoute {} files "/" "index.html"
    let below := siteRoute {} files "/files" "index.html"
    let doubled : Request := { uri := { path := "//docs" } }
    let accented : Request := { uri := { path := "/files/é" } }
    (siteTable {} files "/" "index.html").resolve "//docs" = some top ∧
      (∃ t z, Job.Run (top.pipeline.execute (top.start {} doubled)) t z ∧
        z.responseValues "location" = [Bytes.ofText "//docs/"] ∧ NamesHost "//docs/") ∧
      (siteTable {} files "/files" "index.html").resolve "/files/é" = some below ∧
      ∃ t z, Job.Run (below.pipeline.execute (below.start {} accented)) t z ∧
        z.responseValues "location" = [Bytes.ofText "/é/"] := by
  intro files top below doubled accented
  have sound : files.IsSound := ⟨by decide, by decide⟩
  have found : files.directory? "site" = some ["site"] := by decide
  have built {mount : String} (parsed : Registry.parsePattern mount .below = .ok ⟨mount, .below⟩) :=
    site_built {} "index.html" found parsed
  have at_top : (siteTable {} files "/" "index.html").resolve doubled.uri.path = some top :=
    siteTable_resolve _ _ (by decide)
  have at_below : (siteTable {} files "/files" "index.html").resolve accented.uri.path = some below :=
    siteTable_resolve _ _ (by decide)
  have left_top : top.relativePath doubled.uri.path = "//docs" := Pattern.relativePath_root rfl
  have parts : "/files".toList ++ ['/', 'é'] = accented.uri.path.toList := by decide
  have left_below : below.relativePath accented.uri.path = "/é" :=
    Pattern.relativePath_of_append (by decide) parts
  have asks_top : top.AsksDirectory files ["site"] ["docs"] doubled.uri.path := by
    refine ⟨by decide, by decide, ?_, by decide⟩
    rw [left_top]
    exact Files.decodedPath?_eq_some_iff.mpr ⟨"docs", by decide, by decide, by decide, by decide⟩
  have asks_below : below.AsksDirectory files ["site"] ["é"] accented.uri.path := by
    refine ⟨by decide, by decide, ?_, by decide⟩
    rw [left_below]
    exact Files.decodedPath?_eq_some_iff.mpr ⟨"é", by decide, by decide, by decide, by decide⟩
  have read_top : Uri.parse "//docs" = .ok doubled.uri := by decide
  have read_below : Uri.parse "/files/é" = .ok accented.uri := by decide
  obtain ⟨⟨t, z, run⟩, repeats⟩ := location_of_redirect (built (by decide)) rfl sound nofun read_top
    (.inl rfl) at_top rfl found asks_top {}
  obtain ⟨⟨u, y, run'⟩, repeats'⟩ := location_of_redirect (built (by decide)) rfl sound nofun read_below
    (.inl rfl) at_below rfl found asks_below {}
  have whole := (repeats t z run).1
  have short := (repeats' u y run').1
  rw [if_pos (.inl rfl)] at whole
  rw [left_below, if_neg (by decide)] at short
  exact ⟨at_top, ⟨t, z, run, whole, by decide⟩, at_below, u, y, run', short⟩

end Route
end Gateway
