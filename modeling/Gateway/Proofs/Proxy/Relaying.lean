import Gateway.Proofs.Pipeline.Reception
import Gateway.Proofs.Proxy.Identity
import Gateway.Proofs.Security.Chain
import Gateway.Proofs.Security.Tokens

/-! The headers of a response that was relayed from a backend. The gateway shows the caller's token before
the backend is asked, so what the backend sends under the same names takes its place. -/
namespace Gateway

namespace Proxy
variable {p : Proxy} {lease : Lease} {uri : Uri} {x y : Exchange} {t : Trace} {flow : Flow}

/-- The exchange with the answer of the backend. -/
def relayed (p : Proxy) (lease : Lease) (status : Status) (headers : Headers) (body : Body)
    (x : Exchange) : Exchange :=
  { x.takeBody.1 with
    response := adopt status headers (body.guarded (.lease p.pool lease.ticket)) x.response }

/-- The request is sent. With an answer the pipeline goes on, and without one it fails. -/
lemma runs_forward_cases {r : Except Failure Flow} (run : (p.forward lease uri).Runs x t r y) :
    ∃ answer u, t = ⟨.send lease (p.outgoing lease uri x), answer⟩ :: u ∧
      match answer with
      | .answered status headers body => r = .ok .proceed ∧ y = p.relayed lease status headers body x ∧
          u = ⟨.reportSuccess p.pool lease.ticket, ()⟩ :: Trace.releases (Exchange.dropped x y)
      | .unreachable | .broken _ => ∃ f, r = .error f := by
  have taken : Exchange.dropped x x.takeBody.1 = [] := Exchange.dropped_eq_nil rfl
  unfold forward at run
  rw [Handler.runs_view_bind_iff] at run
  change Handler.Runs (Handler.change (fun _ => x.takeBody.1) >>= _) x t _ _ at run
  rw [Handler.runs_change_bind_iff, taken] at run
  obtain ⟨t, rfl, sent⟩ := run
  obtain ⟨answer, u, rfl, heard⟩ := Handler.runs_perform_bind_iff.mp sent
  refine ⟨answer, u, rfl, ?_⟩
  clear sent
  cases answer with
  | unreachable =>
    cases r with
    | error f => exact ⟨f, rfl⟩
    | ok flow =>
      obtain ⟨_, _, _, _, -, -, reported⟩ := Handler.runs_bind_ok heard
      obtain ⟨_, _, -, given⟩ := Handler.runs_perform_bind_iff.mp reported
      obtain ⟨_, _, -, failed⟩ := Handler.runs_perform_bind_iff.mp given
      cases (Handler.runs_throw_iff.mp failed).2.1
  | broken reason =>
    cases r with
    | error f => exact ⟨f, rfl⟩
    | ok flow =>
      obtain ⟨_, _, _, _, -, -, given⟩ := Handler.runs_bind_ok heard
      obtain ⟨_, _, -, failed⟩ := Handler.runs_perform_bind_iff.mp given
      cases (Handler.runs_throw_iff.mp failed).2.1
  | answered status headers body =>
    obtain ⟨_, v, rfl, reported⟩ := Handler.runs_perform_bind_iff.mp heard
    obtain ⟨w, rfl, adopted⟩ := Handler.runs_change_bind_iff.mp reported
    obtain ⟨rfl, rfl, rfl⟩ := Handler.runs_pure_iff.mp adopted
    rw [List.append_nil]
    exact ⟨rfl, rfl, rfl⟩

/-- An answer lets the pipeline go on. -/
lemma runs_forward_answered {status : Status} {headers : Headers} {body : Body} :
    (p.forward lease uri).Runs x (⟨.send lease (p.outgoing lease uri x), .answered status headers body⟩ ::
      ⟨.reportSuccess p.pool lease.ticket, ()⟩ ::
        Trace.releases (Exchange.dropped x (p.relayed lease status headers body x)))
      (.ok .proceed) (p.relayed lease status headers body x) := by
  have taken : Exchange.dropped x x.takeBody.1 = [] := Exchange.dropped_eq_nil rfl
  unfold forward
  rw [Handler.runs_view_bind_iff]
  change Handler.Runs (Handler.change (fun _ => x.takeBody.1) >>= _) x _ _ _
  rw [Handler.runs_change_bind_iff, taken]
  refine ⟨_, rfl, Handler.runs_perform_bind_iff.mpr ⟨.answered status headers body, _, rfl, ?_⟩⟩
  refine Handler.runs_perform_bind_iff.mpr ⟨(), _, rfl, Handler.runs_change_bind_iff.mpr ?_⟩
  exact ⟨[], (List.append_nil _).symm, Handler.runs_pure_iff.mpr ⟨rfl, rfl, rfl⟩⟩

/-- The stage asks for a lease first. It sends the request if its address can be read, and gives the
lease back if not. -/
lemma runs_stage_cases {r : Except Failure Flow} (run : p.stage.handle.Runs x t r y) :
    ∃ granted u, t = ⟨.lease p.pool, granted⟩ :: u ∧
      match granted with
      | .error f => r = .error f
      | .ok lease => (∃ uri, target lease x = .ok uri ∧ (p.forward lease uri).Runs x u r y) ∨
          ∃ f, r = .error f ∧ u = [⟨.release (.lease p.pool lease.ticket), ()⟩] := by
  obtain ⟨granted, u, rfl, leased⟩ := Handler.runs_perform_bind_iff.mp run
  refine ⟨granted, u, rfl, ?_⟩
  cases granted with
  | error f => exact (Handler.runs_throw_iff.mp leased).2.1
  | ok lease =>
    have viewed := Handler.runs_view_bind_iff.mp leased
    split at viewed
    · next f _ =>
      obtain ⟨_, v, rfl, given⟩ := Handler.runs_perform_bind_iff.mp viewed
      obtain ⟨rfl, failed, -⟩ := Handler.runs_throw_iff.mp given
      exact .inr ⟨f, failed, rfl⟩
    · next uri found => exact .inl ⟨uri, found, viewed⟩

/-- The last stage of a proxy proceeds exactly with the answer of a backend to the request it sent. -/
theorem runs_stage_ok_iff : p.stage.handle.Runs x t (.ok flow) y ↔
    flow = .proceed ∧ ∃ lease uri status headers body, target lease x = .ok uri ∧
      y = p.relayed lease status headers body x ∧
      t = ⟨.lease p.pool, .ok lease⟩ ::
        ⟨.send lease (p.outgoing lease uri x), .answered status headers body⟩ ::
          ⟨.reportSuccess p.pool lease.ticket, ()⟩ :: Trace.releases (Exchange.dropped x y) := by
  constructor
  · intro run
    obtain ⟨granted, u, rfl, outcome⟩ := runs_stage_cases run
    cases granted with
    | error f => cases outcome
    | ok lease =>
      obtain ⟨uri, found, forwarded⟩ | ⟨f, ⟨⟩, -⟩ := outcome
      obtain ⟨answer, v, rfl, outcome⟩ := runs_forward_cases forwarded
      cases answer with
      | unreachable | broken =>
        obtain ⟨f, ⟨⟩⟩ := outcome
      | answered status headers body =>
        obtain ⟨on, rfl, rfl⟩ := outcome
        exact ⟨Except.ok.inj on, lease, uri, status, headers, body, found, rfl, rfl⟩
  · rintro ⟨rfl, lease, uri, status, headers, body, found, rfl, rfl⟩
    refine Handler.runs_perform_bind_iff.mpr ⟨.ok lease, _, rfl, ?_⟩
    dsimp only
    rw [Handler.runs_view_bind_iff, found]
    exact runs_forward_answered

end Proxy
/-- The headers that show a token, each with its text. -/
def Token.shown (token : Token) : List (String × String) :=
  [("auth-token", token.value), ("auth-token-valid-until", toString token.validUntil)]

/-- The names of these headers. -/
def Token.headerNames : List String := ["auth-token", "auth-token-valid-until"]

lemma Token.mem_headerNames {token : Token} {name text : String} (h : (name, text) ∈ token.shown) :
    name ∈ headerNames :=
  List.mem_map_of_mem (f := Prod.fst) h

namespace SecurityChain
variable {c : SecurityChain} {account : Account} {token : Token} {name text : String} {x y : Exchange}
  {t : Trace}

lemma values_tokenHeaders (h : Headers) (valid : isHeaderValue (Bytes.ofText token.value) = true)
    (shown : (name, text) ∈ token.shown) : (tokenHeaders token h).values name = [Bytes.ofText text] := by
  rcases List.mem_pair.mp shown with same | same
  · obtain ⟨rfl, rfl⟩ := Prod.mk.inj same
    rw [tokenHeaders, Headers.insertText, Headers.values_insert_of_ne _ (by decide),
      Headers.values_insertText?, if_pos ⟨rfl, valid⟩]
  · obtain ⟨rfl, rfl⟩ := Prod.mk.inj same
    exact Headers.values_insert_self ..

/-- A caller with an account is shown the token that the store issues. -/
lemma runs_issueToken_ok {u : Unit} (manager : c.tokens = some .ofStore)
    (known : x.account = some account) (h : c.issueToken.Runs x t (.ok u) y) :
    ∃ token, t = [⟨.issueToken account, token⟩] ∧
      y.response.headers = tokenHeaders token x.response.headers := by
  unfold issueToken at h
  rw [manager] at h
  have ran := Handler.runs_view_bind_iff.mp h
  rw [known] at ran
  obtain ⟨v, w, outcome, z, rfl, hv, hw⟩ := Handler.runs_bind_ok ran
  obtain ⟨_, same, issued, rfl⟩ := Handler.runs_job_iff.mp hv
  obtain rfl := Except.ok.inj same
  obtain ⟨v₁, v₂, token, rfl, asked, done⟩ := Job.run_bind_iff.mp issued
  obtain rfl := Job.run_perform_iff.mp asked
  obtain ⟨rfl, rfl⟩ := Job.run_done_iff.mp done
  obtain ⟨-, released, rfl⟩ := Handler.runs_change_iff.mp hw
  obtain rfl : w = [] := released.trans (Exchange.releases_dropped_of_guards rfl)
  exact ⟨token, rfl, rfl⟩

lemma issueToken_keeps_account : c.issueToken.Keeps (·.account) := by
  intro account
  refine .bind .view fun x => ?_
  split
  · refine .bind (.job _) fun outcome => ?_
    split
    · exact .change fun _ h => h
    · exact .job _
  · exact .pure _

/-- The last that the security stage asks for is a token for the account it found. -/
theorem runs_stage_issued {flow : Flow} (manager : c.tokens = some .ofStore)
    (known : y.account = some account) (h : c.stage.handle.Runs x t (.ok flow) y) :
    ∃ before token h, t = before ++ [⟨.issueToken account, token⟩] ∧
      y.response.headers = tokenHeaders token h := by
  obtain ⟨u, v, _, m, rfl, -, rest⟩ := Handler.runs_bind_ok h
  obtain ⟨v, w, _, n, rfl, decided, rest⟩ := Handler.runs_bind_ok rest
  obtain ⟨w, q, _, k, rfl, issued, rest⟩ := Handler.runs_bind_ok rest
  obtain ⟨rfl, -, rfl⟩ := Handler.runs_pure_iff.mp rest
  obtain ⟨rfl, rfl, -⟩ := runs_authorize_ok decided
  have before : n.account = some account := (issueToken_keeps_account _ rfl issued).symm.trans known
  obtain ⟨token, rfl, shown⟩ := runs_issueToken_ok manager before issued
  exact ⟨u, token, _, by rw [List.append_nil, List.nil_append], shown⟩

end SecurityChain
namespace Exchange

/-- The values of a header of the response. -/
def responseValues (name : String) (x : Exchange) : List Bytes := x.response.headers.values name

end Exchange

/-- Getting ready for the interceptors of the response takes no other header away. -/
lemma InterceptorRegistry.Prepares.responseValues {r : InterceptorRegistry} {x y : Exchange}
    {list : List Interceptor} {t : Trace} {name : String} (h : r.Prepares x list t y)
    (other : name ∉ Response.framing) : y.responseValues name = x.responseValues name := by
  have buffered : x.marked.buffered.responseValues name = x.responseValues name :=
    Response.values_buffer other
  cases h with
  | again | mark => rfl
  | read => exact buffered
  | lost _ _ _ fails =>
    obtain rfl := Exchange.fails_iff.mp fails
    exact (Response.values_setJson _ _ other).trans buffered

lemma Pipeline.runResponseInterceptor_keeps {i : Interceptor} {name : String}
    (other : name ∉ Response.framing) (h : i.handle.Keeps (·.responseValues name)) :
    (runResponseInterceptor i).Obeys (.keeping (·.responseValues name)) := by
  have hR := Rule.composes_keeping (Exchange.responseValues name)
  have handle : i.handle.Obeys (.keeping (·.responseValues name)) := fun _ _ _ _ run => h _ rfl run
  refine .bind hR handle fun outcome => ?_
  cases outcome with
  | ok _ => exact .pure hR ()
  | error f =>
    exact .bind hR (.lift fun _ _ _ _ => rfl) fun _ => .change fun x => Response.values_setJson _ _ other

namespace Assembly
variable {a : Assembly} {info : RouteInfo} {p : Proxy} {x y m z : Exchange} {t u : Trace}
  {sent : Headers} {name : String}

/-- With the answers `t`, the pipeline of the proxy lets `x` through its security stage as `y`. Then, with
the answers `u`, it hands `m` to the proxy, whose backend answers with the headers `sent`, and the run
comes to its end with `z`. -/
def Relays (a : Assembly) (info : RouteInfo) (p : Proxy) (x : Exchange) (t : Trace) (y : Exchange)
    (u : Trace) (m : Exchange) (sent : Headers) (z : Exchange) : Prop :=
  ∃ v w q n lease request status body rest, u = v ++ w ++ q ∧ Passes (a.securedHead info) x t y ∧
    Passes ([Forwarding.credentialsStage, Forwarding.stage] ++ a.intercepted .afterAuth false) y v m ∧
    w = ⟨.lease p.pool, .ok lease⟩ :: ⟨.send lease request, .answered status sent body⟩ :: rest ∧
    p.stage.handle.Runs m w (.ok .proceed) n ∧
    ((a.proxy info p.stage).finish (a.proxy info p.stage).stages.reverse).Runs n q () z

/-- Every request that comes through all stages is relayed. -/
theorem exists_relays_iff : (∃ t y v m sent, u = t ++ v ∧ a.Relays info p x t y v m sent z) ↔
    ∃ v w n, u = v ++ w ∧ Passes (a.proxy info p.stage).stages x v n ∧
      ((a.proxy info p.stage).finish (a.proxy info p.stage).stages.reverse).Runs n w () z := by
  have stages : (a.proxy info p.stage).stages = a.securedHead info ++
      (([Forwarding.credentialsStage, Forwarding.stage] ++ a.intercepted .afterAuth false) ++
        [p.stage]) := (List.append_assoc ..).trans (List.append_assoc ..)
  constructor
  · rintro ⟨t, y, _, m, sent, rfl, v, w, q, n, lease, request, status, body, rest, rfl, head, way, -,
      last, ending⟩
    refine ⟨t ++ (v ++ w), q, n, by simp only [List.append_assoc], ?_, ending⟩
    rw [stages]
    exact Passes.append_iff.mpr ⟨t, v ++ w, y, rfl, head,
      Passes.append_iff.mpr ⟨v, w, m, rfl, way, Passes.singleton_iff.mpr last⟩⟩
  · rintro ⟨_, q, n, rfl, way, ending⟩
    rw [stages] at way
    obtain ⟨t, _, y, rfl, head, way⟩ := Passes.append_iff.mp way
    obtain ⟨v, w, m, rfl, toward, last⟩ := Passes.append_iff.mp way
    have answered := Passes.singleton_iff.mp last
    obtain ⟨-, lease, uri, status, sent, body, -, -, rfl⟩ := Proxy.runs_stage_ok_iff.mp answered
    exact ⟨t, y, _, m, sent, by simp only [List.append_assoc], v, _, q, n, lease, _, status, body, _,
      rfl, head, toward, rfl, answered, ending⟩

/-- What is relayed is answered in a run of the pipeline. -/
theorem Relays.run (h : a.Relays info p x t y u m sent z) :
    Job.Run ((a.proxy info p.stage).execute x) (t ++ u) z := by
  obtain ⟨v, w, n, same, way, ending⟩ := exists_relays_iff.mp ⟨t, y, u, m, sent, rfl, h⟩
  rw [same]
  exact (Pipeline.run_execute_iff_of_passes (List.append_nil _).symm way).mpr
    ⟨[], w, _, n, rfl, .done _, ending⟩

/-- A request that comes to the proxy and makes an address at a backend can be relayed with any headers. -/
lemma exists_relays {v : Trace} {lease : Lease} {uri : Uri} (head : Passes (a.securedHead info) x t y)
    (way : Passes ([Forwarding.credentialsStage, Forwarding.stage] ++ a.intercepted .afterAuth false) y v m)
    (found : Proxy.target lease m = .ok uri) (sent : Headers) :
    ∃ u z, a.Relays info p x t y u m sent z := by
  have answered := (Proxy.runs_stage_ok_iff (p := p)).mpr
    ⟨rfl, lease, uri, .ok, sent, .empty, found, rfl, rfl⟩
  obtain ⟨q, _, z, ending⟩ := ((a.proxy info p.stage).finish (a.proxy info p.stage).stages.reverse).exists_runs
    (p.relayed lease .ok sent .empty m)
  exact ⟨_, z, v, _, q, _, lease, _, .ok, _, _, rfl, head, way, rfl, answered, ending⟩

/-- Under a name that is not about the size or kind of the body, the caller gets what the backend said to
them, and if it said nothing what the gateway did. -/
theorem Relays.responseValues (h : a.Relays info p x t y u m sent z) (other : name ∉ Response.framing)
    (unaltered : ∀ i ∈ a.interceptors.atPoint .response, i.handle.Keeps (·.responseValues name)) :
    z.responseValues name =
      if (HopByHop.strip sent).values name = [] then m.responseValues name
      else (HopByHop.strip sent).values name := by
  obtain ⟨v, w, q, n, lease, request, status, body, rest, -, -, -, same, answered, ending⟩ := h
  obtain ⟨-, lease', uri, status', sent', body', -, made, rfl⟩ := Proxy.runs_stage_ok_iff.mp answered
  obtain ⟨-, same⟩ := List.cons.inj same
  cases same
  have content (x : Exchange) : x.releaseContent.responseValues name = x.responseValues name := by
    rw [Exchange.responseValues, x.response_releaseContent, Exchange.responseValues]
  have kept : z.responseValues name = n.responseValues name :=
    finish_keeps (b := .proxy info p.stage) (f := (·.responseValues name)) content
      (.pure (Rule.composes_keeping _) ()) (fun _ _ _ prepared => prepared.responseValues other)
      (fun i hi => Pipeline.runResponseInterceptor_keeps other (unaltered i hi))
      (fun s hs => List.mem_reverse.mp hs) ending
  rw [kept, made]
  exact Headers.values_overlay

/-- A caller with an account is shown the token that the store issued for the request, and until it
expires that stands for the account. What reaches the caller is the token too unless the backend sends
a header of that name and does not list it as one of its connection; then it is what the backend sent.
Interceptors of the response are held to leave the two headers, and those after authorization where
they are said to. -/
theorem Relays.shows_token (h : a.Relays info p x t y u m sent z) {account : Account}
    (manager : a.security.tokens = some .ofStore) (known : y.account = some account)
    (unaltered : ∀ i ∈ a.interceptors.atPoint .response, ∀ name ∈ Token.headerNames,
      i.handle.Keeps (·.responseValues name)) :
    ∃ before token, t = before ++ [⟨.issueToken account, token⟩] ∧
      (isHeaderValue (Bytes.ofText token.value) = true → ∀ name text, (name, text) ∈ token.shown →
        y.responseValues name = [Bytes.ofText text] ∧
        ((∀ i ∈ a.interceptors.atPoint .afterAuth, i.handle.Keeps (·.responseValues name)) →
          m.responseValues name = [Bytes.ofText text]) ∧
        z.responseValues name =
          if sent.values name = [] ∨ name ∈ HopByHop.listedNames sent then m.responseValues name
          else sent.values name) ∧
      ∀ ttl issued time s now i, TokenStore.Recorded ttl issued time s → time ≤ now → i ∈ issued →
        i.account = account → i.token = token → now < i.time + ttl →
          ∃ owner, (s.verify now token.value).2 = some owner ∧ owner.id = account.id ∧
            (TokenStore.lastOf? issued token.value = some i → owner = account) := by
  obtain ⟨v, w, q, n, lease, request, status, body, rest, -, head, way, -, -, -⟩ := id h
  obtain ⟨u₁, u₂, k, rfl, -, secured⟩ := Passes.append_iff.mp head
  obtain ⟨before, token, shown, rfl, headers⟩ :=
    SecurityChain.runs_stage_issued manager known (Passes.singleton_iff.mp secured)
  refine ⟨u₁ ++ before, token, (List.append_assoc ..).symm, fun valid name text hn => ⟨?_, ?_, ?_⟩,
    fun ttl issued time s now i history later mem mine same fresh => ?_⟩
  · rw [Exchange.responseValues, headers]
    exact SecurityChain.values_tokenHeaders shown valid hn
  · intro left
    obtain ⟨_, way⟩ := passes_from_told way
    have kept : m.responseValues name = y.told.responseValues name :=
      way.maintains (intercepted_maintains (fun _ _ h => h) (fun _ _ h => h)
        fun i hi => left i hi _) rfl
    rw [kept]
    change y.response.headers.values name = _
    rw [headers]
    exact SecurityChain.values_tokenHeaders shown valid hn
  · have named := Token.mem_headerNames hn
    have free : name ∉ Response.framing ∧ name ∉ HopByHop.fixedNames := by
      rcases List.mem_pair.mp named with rfl | rfl
      · decide
      · decide
    rw [h.responseValues free.1 fun i hi => unaltered i hi name named, HopByHop.values_strip]
    simp only [free.2, false_or]
    by_cases listed : name ∈ HopByHop.listedNames sent
    · simp only [listed, if_true, or_true]
    · simp only [listed, if_false, or_false]
  · obtain ⟨j, last, owner, verified⟩ := history.verify_issued later mem fresh
    rw [same] at last verified
    refine ⟨j.account, verified, owner.trans (congrArg Account.id mine), fun is_last => ?_⟩
    obtain rfl := Option.some.inj (is_last.symm.trans last)
    exact mine

end Assembly

/-- A gateway that takes everyone for one account and issues tokens to it. -/
def issuingTo (account : Account) : Assembly :=
  { openTo account id with security := { (openTo account id).security with tokens := some .ofStore } }

lemma exists_relays_issuingTo (account : Account) (token : Token) (sent : Headers) :
    ∃ y u m z, (issuingTo account).Relays ⟨.proxy, "/", "api", true⟩ { name := "api", pool := 0 }
        (.ofRequest {} (.ofSizes 1024 64)) [⟨.issueToken account, token⟩] y u m sent z ∧
      y.account = some account := by
  have way : ∃ y, Passes ((issuingTo account).securedHead ⟨.proxy, "/", "api", true⟩)
      (.ofRequest {} (.ofSizes 1024 64)) [⟨.issueToken account, token⟩] y ∧ y.account = some account ∧
      ∃ m, Passes ([Forwarding.credentialsStage, Forwarding.stage] ++
        (issuingTo account).intercepted .afterAuth false) y [] m ∧ m.uri = {} ∧ m.relativePath = "/" := by
    iterate 8 refine Passes.exists_cons (.done _) ?_
    refine ⟨_, Passes.singleton_iff.mpr (.ask (e := .issueToken account) token (by exact .done _)), rfl, ?_⟩
    iterate 5 refine Passes.exists_cons (.done _) ?_
    exact ⟨_, .nil _, rfl, rfl⟩
  obtain ⟨y, head, known, m, rest, line, below⟩ := way
  have found : Proxy.target ⟨0, "b:80", "", false⟩ m = .ok ⟨some "http", some "b:80", "/", none⟩ := by
    rw [Proxy.target, Proxy.targetText, line, below]
    decide
  obtain ⟨u, z, relays⟩ := Assembly.exists_relays head rest found sent
  exact ⟨y, u, m, z, relays, known⟩

/-- A backend that hands out tokens of its own: the caller gets one that the gateway does not know in
place of the one it was issued. -/
theorem relays_foreign_token :
    let ada : Account := .withRoles "ada" []
    let own : Token := ⟨"own", 60⟩
    let foreign : Headers :=
      ⟨[("auth-token", Bytes.ofText "foreign"), ("auth-token-valid-until", Bytes.ofText "1")]⟩
    let s : TokenStore := ⟨60, [("own", ⟨ada, 60⟩)], [("ada", "own")]⟩
    ∃ y u m z, (issuingTo ada).Relays ⟨.proxy, "/", "api", true⟩ { name := "api", pool := 0 }
        (.ofRequest {} (.ofSizes 1024 64)) [⟨.issueToken ada, own⟩] y u m foreign z ∧
      y.account = some ada ∧ y.responseValues "auth-token" = [Bytes.ofText "own"] ∧
      z.responseValues "auth-token" = [Bytes.ofText "foreign"] ∧
      z.responseValues "auth-token-valid-until" = [Bytes.ofText "1"] ∧
      TokenStore.Recorded 60 [⟨0, ada, own⟩] 0 s ∧ (s.verify 10 "own").2 = some ada ∧
        (s.verify 10 "foreign").2 = none := by
  intro ada own foreign s
  obtain ⟨y, u, m, z, relays, known⟩ := exists_relays_issuingTo ada own foreign
  have unaltered : ∀ i ∈ (issuingTo ada).interceptors.atPoint .response, ∀ name ∈ Token.headerNames,
      i.handle.Keeps (·.responseValues name) := by
    intro i hi
    exact absurd hi List.not_mem_nil
  obtain ⟨before, token, issued, shows, verifies⟩ := relays.shows_token rfl known unaltered
  obtain ⟨rfl, one⟩ := List.append_inj' (show [] ++ _ = before ++ _ from issued) rfl
  cases one
  have valid : isHeaderValue (Bytes.ofText own.value) = true := IsPrintable.isHeaderValue (by decide)
  have replaced (name text value : String) (hn : (name, text) ∈ own.shown)
      (there : foreign.values name = [Bytes.ofText value]) :
      z.responseValues name = [Bytes.ofText value] := by
    have none_listed : HopByHop.listedNames foreign = [] := rfl
    rw [(shows valid name text hn).2.2, there, none_listed]
    exact if_neg (by simp)
  have history : TokenStore.Recorded 60 [⟨0, ada, own⟩] 0 s :=
    @TokenStore.Recorded.issue 60 _ 0 0 _ "own" ada .start (by decide) (by decide)
  obtain ⟨owner, verified, -, same⟩ := verifies 60 _ 0 s 10 _ history (by decide) List.mem_cons_self rfl rfl
    (by decide)
  rw [same rfl] at verified
  exact ⟨y, u, m, z, relays, known, (shows valid _ _ List.mem_cons_self).1,
    replaced _ _ _ List.mem_cons_self rfl,
    replaced _ _ _ (List.mem_cons_of_mem _ List.mem_cons_self) rfl, history, verified, rfl⟩

end Gateway
