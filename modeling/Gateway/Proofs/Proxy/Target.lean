import Gateway.Proofs.Balance.Leases
import Gateway.Proofs.Proxy.Identity
import Gateway.Proofs.Route.Proxies
import Gateway.Proofs.Route.Relative
import Gateway.Proofs.Security.Veto

/-! Where a proxied request goes. Its target is put together of the leased host, what is left of the path
below the route, and the query; whatever the path, the host stays. -/
namespace Gateway

/-- The target at a host of what is left of a path, with a query. -/
def Host.target (h : Host) (rel : String) (query : Option String) : Uri :=
  ⟨some "http", some h.authority, if h.basePath ++ rel = "" then "/" else h.basePath ++ rel, query⟩

/-- The text can be what is left of a path: it is empty or begins with a slash, and holds no character
that ends a path. -/
structure IsRest (rel : String) : Prop where
  rooted : rel = "" ∨ rel.toList.head? = some '/'
  chars : ∀ c ∈ rel.toList, Uri.isPathChar c = true

namespace Host.Addressed
variable {h : Host} {rel : String}

lemma isPath_target (ha : h.Addressed) (hr : IsRest rel) (query : Option String) :
    Uri.IsPath (h.target rel query).path := by
  unfold target
  dsimp only
  split
  · exact Uri.isPath_char (c := '/') rfl
  · next ne =>
    refine ⟨ne, fun c hc => ?_⟩
    rw [String.toList_append] at hc
    rcases List.mem_append.mp hc with hc | hc
    · exact ha.chars c hc
    · exact hr.chars c hc

lemma head_target (ha : h.Addressed) (hr : IsRest rel) (query : Option String) :
    (h.target rel query).path.toList.head? = some '/' := by
  unfold target
  dsimp only
  split
  · rfl
  · next ne =>
    rw [String.toList_append]
    rcases ha.rooted with base | base
    · rw [base, String.empty_append] at ne
      rw [base]
      exact hr.rooted.resolve_left ne
    · rw [List.head?_append, base]
      rfl

end Host.Addressed

namespace Proxy
variable {lease : Lease} {h : Host} {x : Exchange} {rel : String} {query : Option String}

lemma targetText_eq (same : lease.IsFor h) (below : x.relativePath = rel) :
    targetText lease x = Uri.text (h.target rel x.uri.query) := by
  have path : (if (h.basePath ++ rel).isEmpty = true then "/" else h.basePath ++ rel) =
      if h.basePath ++ rel = "" then "/" else h.basePath ++ rel := by
    simp only [String.isEmpty_iff]
  have scheme : "http" ++ "://" = "http://" := by decide
  obtain ⟨authority, basePath⟩ := same
  unfold targetText Host.target Uri.text PathQuery.text
  dsimp only
  rw [authority, basePath, below, path, scheme]
  cases x.uri.query with
  | none => simp
  | some q => simp [String.append_assoc]

/-- What is put together for a host is read as it was, unless it is too long. -/
theorem target_eq (same : lease.IsFor h) (ha : h.Addressed) (below : x.relativePath = rel)
    (hr : IsRest rel) (hq : ∀ q ∈ x.uri.query, Uri.IsQuery q) :
    target lease x = if (targetText lease x).utf8ByteSize ≤ Uri.maxLength then
      .ok (h.target rel x.uri.query)
    else .error (.internal ("invalid forwarded uri: " ++ UriError.tooLong.message)) := by
  have text := targetText_eq same below
  by_cases size : (targetText lease x).utf8ByteSize ≤ Uri.maxLength
  · rw [if_pos size]
    rw [text] at size
    have read : Uri.parse (Uri.text (h.target rel x.uri.query)) = .ok (h.target rel x.uri.query) :=
      Uri.parse_text ha.authority (ha.isPath_target hr x.uri.query) (ha.head_target hr x.uri.query) hq
        size
    rw [target, text, read]
  · have long : Uri.parse (targetText lease x) = .error .tooLong := by
      rw [Uri.parse, if_pos (Nat.not_le.mp size)]
    rw [if_neg size, target, long]

end Proxy

namespace Exchange
variable {x y : Exchange} {rel : String} {flow : Flow} {t : Trace}

/-- What is left of the path, and that the target can be read. -/
structure IsAt (x : Exchange) (rel : String) : Prop where
  relative : x.relativePath = rel
  read : x.uri.IsRead

lemma lasting_isAt : Lasting (IsAt · rel) where
  inbound _ _ h hx := ⟨(congrArg Exchange.relativePath h).trans hx.relative,
    hx.read.congr (congrArg (·.uri.target) h)⟩
  rebuild x y h hx := by
    have target := target_of_rebuildQuery hx.read h
    rw [rebuildQuery_eq h]
    exact ⟨hx.relative, hx.read.congr target⟩

end Exchange

namespace Assembly
variable {a : Assembly} {info : RouteInfo} {p : Proxy} {x z : Exchange} {t : Trace} {rel : String}

/-- Interceptors and mechanisms leave what is left of the path, and a target that can be read. -/
structure LeavesPath (a : Assembly) : Prop where
  beforeAuth : ∀ i ∈ a.interceptors.atPoint .beforeAuth, ∀ rel,
    i.handle.Maintains (Exchange.IsAt · rel)
  afterAuth : ∀ i ∈ a.interceptors.atPoint .afterAuth, ∀ rel,
    i.handle.Maintains (Exchange.IsAt · rel)
  mechanisms : ∀ m ∈ a.security.mechanisms, ∀ rel, m.authenticate.Maintains (Exchange.IsAt · rel)

/-- The stages of a proxy's pipeline before the query is rebuilt for the last time. -/
def proxyFront (a : Assembly) (info : RouteInfo) : List Stage :=
  a.securedHead info ++ [Forwarding.credentialsStage, Forwarding.stage] ++
    [Stage.contentReader .afterAuth a.interceptors false, Stage.interceptors .afterAuth a.interceptors]

lemma proxy_stages (a : Assembly) (info : RouteInfo) (last : Stage) :
    (a.proxy info last).stages = a.proxyFront info ++ [Stage.queryRebuilder] ++ [last] := by
  simp [proxy, ofStages, proxyFront, intercepted]

lemma LeavesPath.maintains (ha : a.LeavesPath) (rel : String) :
    ∀ s ∈ a.proxyFront info, s.handle.Maintains (Exchange.IsAt · rel) := by
  have lasting : Exchange.Lasting (Exchange.IsAt · rel) := Exchange.lasting_isAt
  have same {x y : Exchange} (uri : y.uri = x.uri) (rest : y.relativePath = x.relativePath)
      (hx : x.IsAt rel) : y.IsAt rel := ⟨rest.trans hx.relative, by rw [uri]; exact hx.read⟩
  have change {f : Exchange → Exchange} (uri : ∀ x, (f x).uri = x.uri)
      (rest : ∀ x, (f x).relativePath = x.relativePath) :
      (Handler.change f >>= fun _ => pure Flow.proceed).Maintains (Exchange.IsAt · rel) :=
    .bind (.change fun x => same (uri x) (rest x)) fun _ => .pure _
  simp only [proxyFront, securedHead_eq, List.cons_append, List.forall_mem_cons,
    List.forall_mem_append]
  refine ⟨change (fun _ => rfl) fun _ => rfl, ⟨⟨?_, ?_, nofun⟩, ?_, ?_, nofun⟩, ?_, ?_, nofun⟩
  · exact beforeSecurity_maintains lasting fun i hi => ha.beforeAuth i hi rel
  · exact SecurityChain.stage_maintains (fun m hm => ha.mechanisms m hm rel)
      (fun _ _ => same rfl rfl) fun _ _ => same rfl rfl
  · exact change (fun _ => rfl) fun _ => rfl
  · exact change (fun _ => rfl) fun _ => rfl
  · exact lasting.maintains (Stage.contentReader_keeps _ _ _)
  · exact Stage.interceptors_maintains fun i hi => ha.afterAuth i hi rel

/-- The query is rebuilt right before the proxy is handed the exchange. -/
theorem LeavesPath.handed (ha : a.LeavesPath) (hx : x.IsAt rel)
    (h : (a.proxy info p.stage).HandsLast x t z) :
    z.relativePath = rel ∧ z.uri.query = z.writtenQuery := by
  have way := (Pipeline.handsLast_iff (a.proxy_stages info p.stage)).mp h
  obtain ⟨u, v, y, -, front, last⟩ := Passes.append_iff.mp way
  have hy : y.IsAt rel := front.maintains (ha.maintains rel) hx
  have rebuilt := Stage.runs_queryRebuilder_ok (Passes.singleton_iff.mp last)
  obtain ⟨-, rfl⟩ := Exchange.rebuildQuery_ok hy.read rebuilt
  exact ⟨hy.relative, rfl⟩

end Assembly

namespace Registry
variable {a : Assembly} {files : FileTree} {r : Registry} {table : RoutingTable} {route : Route}

/-- A path that is resolved to a proxy is the pattern and what is left of the path, and that can be put
behind the address of a host. -/
lemma isRest_relativePath {path : String} (h : Pattern.IsAbove route.pattern.text path)
    (chars : ∀ c ∈ path.toList, Uri.isPathChar c = true) : IsRest (route.relativePath path) :=
  ⟨Pattern.relativePath_eq_empty_or h, fun c hc => chars c (Pattern.mem_relativePath h hc)⟩

/-- A proxied request goes to the leased host. Its path is the host's own with what is left of the
request's path below the pattern, and its query is the one that was rebuilt. -/
theorem forwards_to_leased_host (hr : Registry.Built a files r) (ht : r.table = some table)
    (leaves : a.LeavesPath) {req : Request} {text : String} (read : Uri.parse text = .ok req.uri)
    (hx : table.resolve req.uri.path = some route) (kind : route.kind = .proxy) :
    let rel := route.relativePath req.uri.path
    (if route.pattern.text = "/" then rel = req.uri.path
      else route.pattern.text ++ rel = req.uri.path) ∧
    (rel = "" ∨ rel.toList.head? = some '/') ∧
    ∃ (p : Proxy) (pool : Pool), route.pipeline = a.proxy route.info p.stage ∧
      r.pools[p.pool]? = some pool ∧
      ∀ limits t z, route.pipeline.HandsLast (route.start limits req) t z →
      ∀ now drawn acts act lease, (Pool.Moment.run ⟨pool, now, drawn⟩ acts).granted act = some lease →
      ∃ host ∈ pool.hosts, (∃ uri budget, parseBackend uri budget = .ok host) ∧ lease.IsFor host ∧
        (Proxy.target lease z = if (Proxy.targetText lease z).utf8ByteSize ≤ Uri.maxLength then
            .ok (host.target rel z.writtenQuery)
          else .error (.internal ("invalid forwarded uri: " ++ UriError.tooLong.message))) ∧
        ∀ u request, p.stage.handle.Asks z u (.send lease request) →
          request.uri = host.target rel z.writtenQuery := by
  intro rel
  obtain ⟨above, p, pool, pipeline, at_, hosts⟩ := hr.traced.proxy_of_resolve ht hx kind
  have path : Uri.IsPath req.uri.path := by
    have rooted : route.pattern.IsRooted := ((hr.sound.table table ht).proper hx).rooted
    refine Uri.isPath_of_parse read fun empty => ?_
    have front := above.prefix
    rw [empty, String.toList_empty, List.prefix_nil] at front
    rw [Pattern.IsRooted, front] at rooted
    cases rooted
  have hrel : IsRest rel := isRest_relativePath above path.2
  refine ⟨?_, hrel.rooted, p, pool, pipeline, at_, ?_⟩
  · split
    · next root => exact Pattern.relativePath_root root
    · next root => exact Pattern.append_relativePath above root
  · intro limits t z handed now drawn acts act lease granted
    obtain ⟨host, member, same⟩ := Pool.Moment.hosts_of_run_granted granted
    obtain ⟨uri, budget, parsed⟩ := hosts host member
    rw [pipeline] at handed
    have start : (route.start limits req).IsAt rel := ⟨rfl, Uri.isRead_of_parse read⟩
    obtain ⟨below, query⟩ := leaves.handed start handed
    have target := Proxy.target_eq same (addressed_of_parseBackend parsed) below hrel
      (by rw [query]; exact z.isQuery_writtenQuery)
    rw [query] at target
    refine ⟨host, member, ⟨uri, budget, parsed⟩, same, target, fun u request sent => ?_⟩
    obtain ⟨-, found, ok, rfl⟩ := Proxy.asks_send_iff.mp sent
    rw [target] at ok
    split at ok
    · exact (Except.ok.inj ok).symm
    · cases ok

end Registry

/-- An open gateway that is a proxy for what is below a path. -/
def openRoute (account : Account) (edit : Headers → Headers) : Route :=
  ⟨⟨"/api", .below⟩, "api", .proxy, true,
    (openTo account edit).proxy ⟨.proxy, "/api", "api", true⟩
      (Proxy.stage { name := "api", pool := 0 })⟩

def openPool : Pool :=
  { name := "api"
    hosts := [⟨⟨some "http", some "b:80", "/base/", none⟩, "b:80", "/base", 5, 0, .healthy, 0⟩] }

lemma openRoute_built (account : Account) (edit : Headers → Headers) :
    ∃ r table, Registry.Built (openTo account edit) {} r ∧ r.table = some table ∧
      table.exact = [] ∧ table.below = [openRoute account edit] ∧ r.pools = [openPool] := by
  have proxied : Registry.Built (openTo account edit) {} _ :=
    .proxy "/api/" "api" ["http://b:80/base/"] {} .empty rfl
  exact ⟨_, _, .freeze proxied, rfl, rfl, List.mergeSort_singleton _, rfl⟩

lemma openRoute_leavesPath (account : Account) (edit : Headers → Headers) :
    (openTo account edit).LeavesPath where
  beforeAuth := nofun
  afterAuth i hi rel := by
    obtain rfl := List.mem_singleton.mp hi
    exact .change fun x hx => ⟨hx.relative, hx.read⟩
  mechanisms m hm rel := by
    obtain rfl := List.mem_singleton.mp hm
    exact .pure _

/-- What looks like another host in the path of a request is asked for below the path of the backend. -/
theorem openRoute_forwards_below_base :
    let ada : Account := .withRoles "ada" []
    let route := openRoute ada id
    let req : Request := { uri := { path := "/api//b:81" } }
    ∃ r table, Registry.Built (openTo ada id) {} r ∧ r.table = some table ∧
      table.resolve req.uri.path = some route ∧
      ∃ (p : Proxy) (pool : Pool) (lease : Lease) (z : Exchange) (request : OutgoingRequest),
        route.pipeline = (openTo ada id).proxy route.info p.stage ∧ r.pools[p.pool]? = some pool ∧
        (Pool.Moment.mk pool 0 0).granted .tryLease = some lease ∧
        route.pipeline.HandsLast (route.start {} req) [] z ∧
        p.stage.handle.Asks z [⟨.lease p.pool, .ok lease⟩] (.send lease request) ∧
        request.uri = ⟨some "http", some "b:80", "/base//b:81", none⟩ := by
  intro ada route req
  obtain ⟨r, table, built, frozen, exact_, below, pools⟩ := openRoute_built ada id
  have resolved : table.resolve req.uri.path = some route := by
    rw [RoutingTable.resolve, exact_, below]
    exact List.find?_cons_of_pos (by decide)
  have read : Uri.parse "/api//b:81" = .ok req.uri := by decide
  obtain ⟨-, -, p, pool, pipeline, at_, sends⟩ := Registry.forwards_to_leased_host built frozen
    (openRoute_leavesPath ada id) read resolved rfl
  have only : [openPool][p.pool]? = some pool := pools ▸ at_
  obtain rfl : openPool = pool := (List.mem_singleton.mp (List.mem_of_getElem? only)).symm
  have granted : (Pool.Moment.mk openPool 0 0).granted .tryLease =
      some ⟨0, "b:80", "/base", false⟩ := by decide
  have way : ∃ z, Passes ((openTo ada id).proxyFront route.info ++ [Stage.queryRebuilder])
      (route.start {} req) [] z ∧ z.relativePath = route.relativePath req.uri.path ∧
        z.uri.query = none ∧ z.writtenQuery = none := by
    iterate 14 refine Passes.exists_cons (.done _) ?_
    exact ⟨_, .nil _, rfl, rfl, rfl⟩
  obtain ⟨z, passes, below, query, written⟩ := way
  have handed : route.pipeline.HandsLast (route.start {} req) [] z := by
    rw [pipeline]
    exact (Pipeline.handsLast_iff ((openTo ada id).proxy_stages route.info p.stage)).mpr passes
  obtain ⟨host, member, -, -, target, asked⟩ := sends {} [] z handed 0 0 [] .tryLease _ granted
  obtain rfl := List.mem_singleton.mp member
  have rel : route.relativePath req.uri.path = "//b:81" := by decide +kernel
  have text : Proxy.targetText ⟨0, "b:80", "/base", false⟩ z = "http://b:80/base//b:81" := by
    rw [Proxy.targetText, below, query, rel]
    decide
  rw [text, if_pos (by decide)] at target
  have sent := (Proxy.asks_send_iff (p := p)).mpr ⟨rfl, _, target, rfl⟩
  refine ⟨r, table, built, frozen, resolved, p, _, _, z, _, pipeline, at_, granted, handed, sent, ?_⟩
  rw [asked _ _ sent, rel, written]
  decide

end Gateway
