import Gateway.Proofs.Proxy.Answers
import Gateway.Proofs.Route.Mounts
import Gateway.Proofs.Site.Paths
import Gateway.Proofs.Site.Serving

/-! Which file stands for a directory. The name of the welcome file is put behind the path and then read and
decoded with it, so it names that file only if it is plain. -/
namespace Gateway

/-- The name is read in a path as it is written: it is made of path characters, and no percent sign in it
begins an escape. -/
def IsPlain (name : String) : Prop :=
  (∀ c ∈ name.toList, Uri.isPathChar c = true) ∧ percentDecode (Bytes.ofText name) = Bytes.ofText name

instance (name : String) : Decidable (IsPlain name) :=
  decidable_of_iff (name.toList.all Uri.isPathChar = true ∧ _) (and_congr_left' List.all_eq_true)

/-- What is served: the content that comes with success and does not break off. -/
def Reply.served (r : Reply) : Option Bytes :=
  if r.status = .ok ∧ r.body.failure = none then some r.body.bytes else none

namespace Files
variable {t : FileTree} {root names names' : List String} {uri : Uri} {path base name : String} {content : Bytes}

/-- The file a target is taken for: the one that it names, or the index of a directory that it names with a
slash. -/
def target? (t : FileTree) (root : List String) (uri : Uri) : Option (List String) :=
  (decodedPath? uri.path).bind fun names =>
    if isUnspeakable t root names then none
    else if t.isDirectory (root ++ names) then
      if endsWithSlash uri.path then some (root ++ names ++ ["index.html"]) else none
    else if endsWithSlash uri.path then none
    else some (root ++ names)

lemma served_fileReply (t : FileTree) (path : List String) : (fileReply t .get path).served = t.file? path := by
  rw [fileReply]
  cases t.file? path with
  | none => rfl
  | some content =>
    have whole : (Body.stream (if content = [] then [] else [content])).bytes = content := by
      cases content <;> simp [Body.stream, Body.bytes]
    exact congrArg some whole

/-- A GET serves the file that its target is taken for. -/
theorem served_get : (serve t root .get uri).served = (target? t root uri).bind t.file? := by
  unfold serve target?
  rw [if_neg (by decide)]
  cases decodedPath? uri.path with
  | none => rfl
  | some names =>
    rw [Option.bind_some]
    dsimp only
    split
    · rfl
    · split
      · split
        · exact served_fileReply t _
        · rfl
      · split
        · rfl
        · exact served_fileReply t _

/-- The path starts at the root and ends with a slash. -/
structure IsFront (base : String) : Prop where
  isPath : Uri.IsPath base
  rooted : base.toList.head? = some '/'
  slash : endsWithSlash base = true

lemma IsFront.head_append (front : IsFront base) (name : String) :
    (base ++ name).toList.head? = some '/' := by
  rw [String.toList_append, List.head?_append, front.rooted]
  rfl

/-- Behind the path of a directory a text that is not too long is cut at a mark that ends the path. -/
lemma path_of_parse (front : IsFront base) (read : Uri.parse (base ++ name) = .ok uri) :
    (base ++ name).utf8ByteSize ≤ Uri.maxLength ∧ ∃ cut, cut.toList <+: name.toList ∧
      (∀ c ∈ cut.toList, Uri.isPathChar c = true) ∧ uri.path = base ++ cut := by
  rw [Uri.parse_of_rooted (front.head_append name)] at read
  split at read
  · cases read
  · next size =>
    refine ⟨Nat.not_lt.mp size, ?_⟩
    obtain ⟨scanned, found, same⟩ := Uri.exists_of_bind_ok read
    obtain rfl := Except.ok.inj same
    obtain ⟨valid, path⟩ := Uri.scanPathQuery_path found
    have marks := front.isPath.ne_mark
    have number : (base.toList ++ name.toList).takeWhile (· ≠ '#') =
        base.toList ++ name.toList.takeWhile (· ≠ '#') :=
      List.takeWhile_append_of_pos fun c hc => decide_eq_true (marks c hc).1
    have question (rest : List Char) : (base.toList ++ rest).takeWhile (· ≠ '?') =
        base.toList ++ rest.takeWhile (· ≠ '?') :=
      List.takeWhile_append_of_pos fun c hc => decide_eq_true (marks c hc).2
    rw [String.toList_append, number, question] at valid path
    have ne : base.toList ++ (name.toList.takeWhile (· ≠ '#')).takeWhile (· ≠ '?') ≠ [] :=
      List.append_ne_nil_of_left_ne_nil (mt String.toList_eq_nil_iff.mp front.isPath.1) _
    rw [if_neg ne, String.ofList_append, String.ofList_toList] at path
    rw [List.all_append, Bool.and_eq_true] at valid
    refine ⟨String.ofList ((name.toList.takeWhile (· ≠ '#')).takeWhile (· ≠ '?')), ?_, ?_, path⟩
    · rw [String.toList_ofList]
      exact (List.takeWhile_prefix _).trans (List.takeWhile_prefix _)
    · rw [String.toList_ofList]
      exact List.all_eq_true.mp valid.2

/-- If decoding leaves a name, it left every character of it as it was. -/
lemma isPlain_of_mem_pieces {cut text : String} (first : cut.toList <+: name.toList)
    (chars : ∀ c ∈ cut.toList, Uri.isPathChar c = true)
    (decoded : percentDecode (Bytes.ofText cut) = Bytes.ofText text)
    (mem : name ∈ FileTree.pieces text.toList) : IsPlain name := by
  have inner := FileTree.utf8ByteSize_le_of_mem_pieces mem
  -- neither the cut nor the decoding makes a text longer, so both left the name as it was
  have shorter := length_percentDecode_le (Bytes.ofText cut)
  rw [decoded, Bytes.ofText_length, Bytes.ofText_length] at shorter
  obtain ⟨more, parts⟩ := first
  have whole : cut ++ String.ofList more = name := by
    rw [← String.toList_inj, String.toList_append, String.toList_ofList, parts]
  have sizes : cut.utf8ByteSize + (String.ofList more).utf8ByteSize = name.utf8ByteSize := by
    rw [← String.utf8ByteSize_append, whole]
  have none : String.ofList more = "" := String.utf8ByteSize_eq_zero_iff.mp (by omega)
  rw [none, String.append_empty] at whole
  subst whole
  refine ⟨chars, (percentDecode_eq_or_shorter _).resolve_right fun less => ?_⟩
  rw [decoded, Bytes.ofText_length, Bytes.ofText_length] at less
  omega

/-- The file that the text of a target is taken for. -/
def taken? (t : FileTree) (root : List String) (text : String) : Option (List String) :=
  (Uri.parse text).toOption.bind (target? t root)

/-- Only a plain name is read and decoded to itself. -/
lemma isPlain_of_taken? (front : IsFront base) (found : decodedPath? base = some names) (bare : '/' ∉ name.toList)
    (taken : taken? t root (base ++ name) = some (root ++ names ++ [name])) :
    IsPlain name ∧ (base ++ name).utf8ByteSize ≤ Uri.maxLength := by
  obtain ⟨uri, parsed, target⟩ := Option.bind_eq_some_iff.mp taken
  have read : Uri.parse (base ++ name) = .ok uri := by
    cases parse : Uri.parse (base ++ name) with
    | error e => simp [parse, Except.toOption] at parsed
    | ok u => simpa [parse, Except.toOption] using parsed
  obtain ⟨size, cut, first, chars, path⟩ := path_of_parse front read
  refine ⟨?_, size⟩
  obtain ⟨names', named, chosen⟩ := Option.bind_eq_some_iff.mp target
  rw [path] at named
  obtain ⟨text, decoded, rfl⟩ := names_of_decodedPath? front.slash found (fun mem => bare (first.subset mem)) named
  split at chosen
  · cases chosen
  · split at chosen
    · -- What stands for a directory has the name of an index, which is plain.
      split at chosen
      · have last := (List.append_inj' (Option.some.inj chosen) rfl).2
        obtain rfl := List.singleton_inj.mp last
        decide
      · cases chosen
    · split at chosen
      · cases chosen
      · have same : root ++ names ++ FileTree.pieces text.toList = root ++ names ++ [name] := by
          rw [List.append_assoc]
          exact Option.some.inj chosen
        have mem : name ∈ FileTree.pieces text.toList := by
          rw [List.append_cancel_left same]
          exact List.mem_singleton_self name
        exact isPlain_of_mem_pieces first chars decoded mem

/-- A plain name that is not too long is taken for the file of that name. -/
lemma taken?_of_isPlain (sound : t.IsSound) (front : IsFront base) (found : decodedPath? base = some names)
    (isName : IsFileName name) (file : t.file? (root ++ names ++ [name]) = some content) (h : IsPlain name)
    (size : (base ++ name).utf8ByteSize ≤ Uri.maxLength) :
    taken? t root (base ++ name) = some (root ++ names ++ [name]) := by
  obtain ⟨chars, plain⟩ := h
  have isPath : Uri.IsPath (base ++ name) := by
    refine ⟨fun empty => front.isPath.1 (String.append_eq_empty_iff.mp empty).1, fun c hc => ?_⟩
    rw [String.toList_append, List.mem_append] at hc
    exact hc.elim (front.isPath.2 c) (chars c)
  have bare : endsWithSlash (base ++ name) = false := by
    rw [endsWithSlash, String.toList_append,
      List.getLast?_append_of_ne_nil _ (mt String.toList_eq_nil_iff.mp isName.ne_empty), beq_eq_false_iff_ne]
    exact fun last => isName.noSlash (List.mem_of_getLast? last)
  have speakable : isUnspeakable t root (names ++ [name]) = false :=
    isUnspeakable_eq_false (sound.speakable_of_file? (List.append_assoc .. ▸ file))
  have leaf : t.isDirectory (root ++ (names ++ [name])) = false := by
    rw [← List.append_assoc]
    exact sound.leaves _ (FileTree.mem_of_file? file)
  rw [taken?, Uri.parse_path isPath (front.head_append name) size, Except.toOption, Option.bind_some, target?,
    decodedPath?_of_plain front.slash found isName plain, Option.bind_some, if_neg (Bool.eq_false_iff.mp speakable),
    if_neg (Bool.eq_false_iff.mp leaf), if_neg (Bool.eq_false_iff.mp bare), List.append_assoc]

end Files

/-- What is served of the response. -/
def Exchange.served (x : Exchange) : Option Bytes := x.response.toReply.served

/-- No failure is a success. -/
lemma Failure.status_ne_ok (f : Failure) : f.status ≠ .ok := by
  intro same
  have code := congrArg Status.code same
  cases f <;> exact nomatch code

/-- Responses that are alike serve the same. -/
lemma Response.Alike.served {r r' : Response} (h : Alike r r') : r'.toReply.served = r.toReply.served := by
  have whole : r'.toReply.body.failure = r.toReply.body.failure := h.whole
  have bytes : r'.toReply.body.bytes = r.toReply.body.bytes := h.bytes
  have status : r'.toReply.status = r.toReply.status := h.status
  rw [Reply.served, status, whole, bytes, Reply.served]

namespace InterceptorRegistry.Prepares
variable {r : InterceptorRegistry} {x y : Exchange} {list : List Interceptor} {t : Trace} {body : Body}

/-- Nothing is made a success by getting ready for the interceptors of the response. -/
lemma status_ne_ok (h : r.Prepares x list t y) (fails : x.response.status ≠ .ok) : y.response.status ≠ .ok := by
  cases h with
  | again | mark => exact fails
  | read => exact fun success => fails (Response.status_buffer.symm.trans success)
  | @lost f _ _ _ _ failed => exact fun success => f.status_ne_ok (failed.status.symm.trans success)

/-- What is served is left if it is not too large to be read for them. -/
lemma served (h : r.Prepares x list t y) (streamed : x.response.body = .stream body)
    (fits : r.NeedsContent x → ∀ content, x.served = some content → content.length ≤ x.limits.max) :
    y.served = x.served := by
  have readable : x.response.isReadable x.limits = true ↔
      body.bytes.length ≤ x.limits.max ∧ body.failure = none := by
    rw [Response.isReadable, streamed, Bool.and_eq_true, decide_eq_true_eq, Option.isNone_iff_eq_none]
  have sent : x.response.toReply.body = body := congrArg ResponseBody.toBody streamed
  cases h with
  | again | mark => rfl
  | read _ _ ready =>
    have whole : x.response.body.Fits x.limits := by
      obtain ⟨size, whole⟩ := readable.mp ready
      rw [streamed]
      exact ⟨size, whole⟩
    have full : ¬x.response.body.IsFull := by
      rw [streamed]
      rintro ⟨_, _, other⟩
      cases other
    exact (Response.alike_buffer whole full).served
  | @lost f y first any why fails =>
    have failed : y.served = none :=
      if_neg fun success => f.status_ne_ok (fails.status.symm.trans success.1)
    rw [failed]
    by_contra other
    obtain ⟨content, served⟩ := Option.ne_none_iff_exists'.mp (Ne.symm other)
    obtain ⟨⟨-, whole⟩, bytes⟩ := Option.ite_none_right_eq_some.mp served
    have size := fits ⟨first, any⟩ content served
    rw [← Option.some.inj bytes, sent] at size
    rw [sent] at whole
    cases (Response.buffer_ok_iff.mpr (readable.mpr ⟨size, whole⟩)).symm.trans why

end InterceptorRegistry.Prepares

namespace Site
variable {s : Site} {x : Exchange} {names : List String} {rest : String} {uri : Uri}

/-- A GET of a path is served the file that the text of its target is taken for. -/
lemma served_answered (get : x.method = .get) : (s.answered x).served =
    (Files.taken? s.files s.root (s.filePath x.relativePath)).bind s.files.file? := by
  rw [Files.taken?]
  cases parsed : Uri.parse (s.filePath x.relativePath) with
  | error e =>
    rw [answered, parsed]
    rfl
  | ok uri =>
    have sent : (s.answered x).served = (Files.serve s.files s.root x.method uri).served := by
      rw [answered_of_parse parsed]
      rfl
    rw [sent, get]
    exact Files.served_get

/-- The path of a directory with a slash at its end, or nothing, is the front of the path of its welcome
file. -/
lemma exists_front (h : rest = "" ∨ Files.IsFront rest) (named : Files.decodedPath? rest = some names) :
    ∃ base, s.filePath rest = base ++ s.welcomeFile ∧ Files.IsFront base ∧
      Files.decodedPath? base = some names := by
  by_cases root : rest = "" ∨ rest = "/"
  · have front : Files.IsFront "/" := ⟨Uri.isPath_char (c := '/') rfl, by decide, by decide⟩
    refine ⟨"/", if_pos root, front, ?_⟩
    rcases root with rfl | rfl
    · exact named
    · exact named
  · have front := h.resolve_left (not_or.mp root).1
    exact ⟨rest, (if_neg root).trans (if_pos front.slash), front, named⟩

/-- What the site serves is left when the interceptors of the response get ready, if no file is too large to
be read for them. -/
lemma served_prepared {r : InterceptorRegistry} {y : Exchange} {list : List Interceptor} {t : Trace}
    (get : x.method = .get) (fits : (∃ i ∈ r.atPoint .response, i.requiresContent = true) →
      ∀ f ∈ s.files.files, f.2.length ≤ x.limits.max)
    (h : r.Prepares (s.answered x) list t y) : y.served = (s.answered x).served := by
  cases parsed : Uri.parse (s.filePath x.relativePath) with
  | error e =>
    have failed : (s.answered x).response.status ≠ .ok := by
      rw [answered, parsed]
      exact Failure.status_ne_ok (.notFound x.path)
    have nothing {z : Exchange} (fails : z.response.status ≠ .ok) : z.served = none := if_neg fun h => fails h.1
    rw [nothing failed, nothing (h.status_ne_ok failed)]
  | ok uri =>
    have streamed : (s.answered x).response.body = .stream (Files.serve s.files s.root x.method uri).body := by
      rw [answered_of_parse parsed]
      rfl
    have limits : (s.answered x).limits = x.limits := by
      rw [answered_of_parse parsed]
    refine h.served streamed fun needs content served => ?_
    rw [served_answered get] at served
    obtain ⟨path, -, file⟩ := Option.bind_eq_some_iff.mp served
    obtain ⟨i, mem, requires⟩ := List.any_eq_true.mp needs.2
    rw [limits]
    exact fits ⟨i, (List.mem_filter.mp mem).1, requires⟩ _ (FileTree.mem_of_file? file)

end Site

namespace Route
variable {a : Assembly} {files : FileTree} {r : Registry} {table : RoutingTable} {route : Route}

/-- What is left of the path of a directory is empty or starts and ends with a slash. -/
lemma isFront_relativePath {uri : Uri} {text : String} (above : Pattern.IsAbove route.pattern.text uri.path)
    (read : Uri.parse text = .ok uri)
    (slash : uri.path = route.pattern.text ∨ Files.endsWithSlash uri.path = true) :
    route.relativePath uri.path = "" ∨ Files.IsFront (route.relativePath uri.path) := by
  refine or_iff_not_imp_left.mpr fun ne => ?_
  obtain ⟨isPath, rooted, -⟩ := Pattern.isPath_relativePath above read ne
  refine ⟨isPath, rooted, (Pattern.endsWithSlash_relativePath above ne).trans ?_⟩
  refine slash.elim (fun whole => ?_) id
  by_cases root : route.pattern.text = "/"
  · rw [whole, root]
    rfl
  · exact absurd (Pattern.relativePath_of_append root (whole ▸ List.append_nil _)) ne

/-- A GET of the mount or of a directory below it with a slash is served what the path is taken for with the
name of the welcome file behind it. That is the welcome file exactly if the name is plain and the path gets not
too long, and then every run serves the content of the file. Interceptors of the response are held to leave
what is served. -/
theorem served_welcome_file (hr : Registry.Built a files r) (ht : r.table = some table)
    (sound : files.IsSound)
    (unaltered : ∀ i ∈ a.interceptors.atPoint .response,
      (Pipeline.runResponseInterceptor i).Obeys (.keeping Exchange.served))
    {req : Request} {text : String} (read : Uri.parse text = .ok req.uri) (get : req.method = .get)
    (hx : table.resolve req.uri.path = some route) (kind : route.kind = .static)
    {root names : List String} {welcomeFile : String} (serves : route.Serves a files root welcomeFile)
    (slash : req.uri.path = route.pattern.text ∨ Files.endsWithSlash req.uri.path = true)
    (named : Files.decodedPath? (route.relativePath req.uri.path) = some names)
    (isName : IsFileName welcomeFile) {content : Bytes}
    (file : files.file? (root ++ names ++ [welcomeFile]) = some content) (limits : ContentLimits)
    (fits : (∃ i ∈ a.interceptors.atPoint .response, i.requiresContent = true) →
      ∀ f ∈ files.files, f.2.length ≤ limits.max) :
    let site := Site.ofDirectory files root route.pattern.text welcomeFile
    let asked := site.filePath (route.relativePath req.uri.path)
    let plain := IsPlain welcomeFile ∧ asked.utf8ByteSize ≤ Uri.maxLength
    (∃ t z, Job.Run (route.pipeline.execute (route.start limits req)) t z) ∧
      (Files.taken? files root asked = some (root ++ names ++ [welcomeFile]) ↔ plain) ∧
        ∀ t z, Job.Run (route.pipeline.execute (route.start limits req)) t z →
          z.served = (Files.taken? files root asked).bind files.file? ∧ (plain → z.served = some content) := by
  intro site asked plain
  obtain ⟨-, above⟩ := hr.mounted_of_resolve ht hx kind
  have front := isFront_relativePath above read slash
  obtain ⟨base, parts, front, found⟩ := site.exists_front front named
  have taken : Files.taken? files root asked = some (root ++ names ++ [welcomeFile]) ↔ plain := by
    unfold plain asked
    rw [parts]
    exact ⟨Files.isPlain_of_taken? front found isName.noSlash,
      fun h => Files.taken?_of_isPlain sound front found isName file h.1 h.2⟩
  refine ⟨Job.exists_run _, taken, fun t z run => ?_⟩
  rw [serves] at run
  have served : z.served = (Files.taken? files root asked).bind files.file? := by
    have content (x : Exchange) : x.releaseContent.served = x.served := by
      rw [Exchange.served, x.response_releaseContent, Exchange.served]
    obtain ⟨m, inbound, kept⟩ := Assembly.static_keeps (f := Exchange.served) content
      (fun m list t y inbound prepared => by
        obtain ⟨-, method, max⟩ := of_inbound inbound
        exact site.served_prepared (method.trans get) (max ▸ fits) prepared) unaltered run
    obtain ⟨left, method, -⟩ := of_inbound inbound
    rw [kept, Site.served_answered (method.trans get), left]
    rfl
  refine ⟨served, fun h => ?_⟩
  rw [served, taken.mpr h]
  exact file

/-- A blank in the name of the welcome file is no part of a path, so the file is not served. One that is plain
is. -/
theorem served_unless_blank :
    let files : FileTree :=
      ⟨[(["site", "with space.txt"], Bytes.ofText "spaced"), (["site", "home.txt"], Bytes.ofText "home")]⟩
    let route := siteRoute {} files "/site"
    let req : Request := { uri := { path := "/site" } }
    files.file? ["site", "with space.txt"] = some (Bytes.ofText "spaced") ∧
      (∀ w, (siteTable {} files "/site" w).resolve "/site" = some (route w)) ∧
      (∃ t z, Job.Run ((route "with space.txt").pipeline.execute ((route "with space.txt").start {} req)) t z ∧
        z.served = none) ∧
      ∃ t z, Job.Run ((route "home.txt").pipeline.execute ((route "home.txt").start {} req)) t z ∧
        z.served = some (Bytes.ofText "home") := by
  intro files route req
  have sound : files.IsSound := ⟨by decide, by decide⟩
  have found : files.directory? "site" = some ["site"] := by decide
  have parsed : Registry.parsePattern "/site" .below = .ok ⟨"/site", .below⟩ := by decide
  have read : Uri.parse "/site" = .ok req.uri := by decide
  have resolved (w : String) : (siteTable {} files "/site" w).resolve req.uri.path = some (route w) :=
    siteTable_resolve {} w (by decide)
  have left (w : String) : (route w).relativePath req.uri.path = "" :=
    Pattern.relativePath_of_append (show "/site" ≠ "/" by decide) (List.append_nil _)
  have named (w : String) : Files.decodedPath? ((route w).relativePath req.uri.path) = some [] := by
    rw [left]
    exact Files.decodedPath?_eq_some_iff.mpr ⟨"", by decide, by decide, by decide, by decide⟩
  have outcome {w : String} {content : Bytes} (isName : IsFileName w)
      (file : files.file? (["site"] ++ [] ++ [w]) = some content) :=
    served_welcome_file (site_built {} w found parsed) rfl sound nofun read rfl (resolved w) rfl rfl (.inl rfl)
      (named w) isName file {} (fun ⟨_, mem, _⟩ => nomatch mem)
  have spaced : files.file? (["site"] ++ [] ++ ["with space.txt"]) = some (Bytes.ofText "spaced") := by decide
  have home : files.file? (["site"] ++ [] ++ ["home.txt"]) = some (Bytes.ofText "home") := by decide
  obtain ⟨⟨t, z, run⟩, -, serves⟩ := outcome ⟨by decide, by decide, by decide, by decide⟩ spaced
  obtain ⟨⟨u, y, run'⟩, -, serves'⟩ := outcome ⟨by decide, by decide, by decide, by decide⟩ home
  refine ⟨spaced, resolved, ⟨t, z, run, ?_⟩, u, y, run', ?_⟩
  · have refused : Uri.parse "/with space.txt" = .error .invalidCharacter := by decide
    rw [(serves t z run).1, left]
    change Option.bind (Files.taken? files ["site"] "/with space.txt") files.file? = none
    rw [Files.taken?, refused]
    rfl
  · refine (serves' u y run').2 ⟨by decide, ?_⟩
    rw [left]
    decide

end Route
end Gateway
