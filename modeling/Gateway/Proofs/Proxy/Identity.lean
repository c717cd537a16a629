import Gateway.Proofs.Pipeline.Forwarding
import Gateway.Proofs.Pipeline.Stages
import Gateway.Proofs.Proxy.Sending

/-! Who the backend is told has called. Credentials stay behind and no one but the gateway speaks
about the account, but what it says goes through the removal of the connection's own headers. -/
namespace Gateway

namespace Exchange
variable {y : Exchange} {name text : String}

/-- The exchange with what backends are told. -/
def told (y : Exchange) : Exchange :=
  let y := { y with headers := y.headers.remove "authorization" }
  { y with headers := Forwarding.forwarded y }

lemma values_told_of_notMem (ne : name ≠ "authorization") (other : name ∉ Forwarding.ownNames) :
    y.told.headers.values name = y.headers.values name := by
  rw [told, Forwarding.values_forwarded_of_notMem other]
  exact Headers.values_remove_of_ne _ ne.symm

lemma values_told_of_tells (h : Forwarding.Tells y name text) :
    y.told.headers.values name = [Bytes.ofText text] := by
  refine Forwarding.values_forwarded_of_tells ?_
  cases h with
  | account known about valid => exact .account known about valid
  | client known =>
    have same : (y.headers.remove "authorization").values Forwarding.forHeader =
        y.headers.values Forwarding.forHeader := Headers.values_remove_of_ne _ (by decide)
    rw [← Forwarding.chainText_congr same]
    exact .client known

lemma values_told_authorization : y.told.headers.values "authorization" = [] := by
  rw [told, Forwarding.values_forwarded_of_notMem (by decide)]
  exact Headers.values_remove_self ..

/-- What is told about an account was found out about it. -/
lemma values_told_identity {text : Account → String} (about : (name, text) ∈ Forwarding.identity) :
    y.told.headers.values name = [] ∨
      ∃ acc, y.account = some acc ∧ y.told.headers.values name = [Bytes.ofText (text acc)] := by
  have written : y.told.headers.values name = _ := Forwarding.values_forwarded_identity about
  rw [written]
  split
  · next acc known =>
    split
    · exact .inr ⟨acc, known, rfl⟩
    · exact .inl rfl
  · exact .inl rfl

end Exchange

namespace Assembly
variable {a : Assembly} {info : RouteInfo} {p : Proxy} {x y z : Exchange} {t : Trace} {lease : Lease}
  {request : OutgoingRequest} {P : Exchange → Prop} {name : String}

/-- Around the interceptors only the content and the target change. -/
lemma intercepted_maintains {point : InterceptPoint} {needed : Bool}
    (content : ∀ x c, P x → P { x with content := c }) (target : ∀ x uri, P x → P { x with uri := uri })
    (interceptors : ∀ i ∈ a.interceptors.atPoint point, i.handle.Maintains P) :
    ∀ s ∈ a.intercepted point needed, s.handle.Maintains P := by
  simp only [intercepted, List.forall_mem_cons]
  refine ⟨?_, Stage.interceptors_maintains interceptors, ?_, nofun⟩
  · refine .bind .view fun _ => ?_
    split
    · refine .bind (.attempt fun x hx => ?_) fun _ => .pure _
      obtain ⟨c, e⟩ := x.readContent_eq
      rw [e]
      exact content x c hx
    · exact .pure _
  · refine .bind (.attempt fun x hx => ?_) fun _ => .pure _
    split
    · next y h =>
      rw [Exchange.rebuildQuery_eq h]
      exact target x _ hx
    · exact hx

/-- After the security stage an exchange meets the interceptors with what backends are told. -/
lemma passes_from_told (rest : Passes ([Forwarding.credentialsStage, Forwarding.stage] ++
    a.intercepted .afterAuth false) y t z) : ∃ u, Passes (a.intercepted .afterAuth false) y.told u z := by
  obtain ⟨v₁, v₂, y₁, rfl, credentials, rest⟩ := Passes.cons_iff.mp rest
  obtain ⟨v₂, v₃, y₂, rfl, forwarding, rest⟩ := Passes.cons_iff.mp rest
  obtain rfl := Forwarding.runs_credentialsStage_ok credentials
  obtain rfl := Forwarding.runs_stage_ok forwarding
  exact ⟨v₃, rest⟩

lemma Forwards.from_told (h : a.Forwards info p x t y z lease request) :
    (∃ u, Passes (a.intercepted .afterAuth false) y.told u z) ∧
      ∃ uri, request = p.outgoing lease uri z := by
  obtain ⟨u, v, w, -, -, rest, sent⟩ := h
  obtain ⟨-, uri, -, made⟩ := Proxy.asks_send_iff.mp sent
  exact ⟨passes_from_told rest, uri, made⟩

/-- On its way out a header is left alone or taken off. -/
lemma values_outgoing {uri : Uri} (ne : name ≠ "host") :
    (p.outgoing lease uri z).headers.values name =
      if name ∈ HopByHop.fixedNames ∨ name ∈ HopByHop.listedNames z.headers then []
      else z.headers.values name := by
  have stripped : (p.outgoing lease uri z).headers.values name =
      (HopByHop.strip z.headers).values name := by
    change (p.outgoingHeaders lease z.headers).values name = _
    unfold Proxy.outgoingHeaders
    dsimp only
    split
    · exact HopByHop.values_setHost_of_ne ne
    · rfl
  rw [stripped, HopByHop.values_strip]

lemma values_outgoing_sublist {uri : Uri} (ne : name ≠ "host") :
    ((p.outgoing lease uri z).headers.values name).Sublist (z.headers.values name) := by
  rw [values_outgoing ne]
  split
  · exact List.nil_sublist _
  · exact List.Sublist.refl _

/-- What the gateway tells about an exchange reaches the backend unless the exchange came with a
connection header that lists the name. -/
theorem Forwards.values_of_tells (h : a.Forwards info p x t y z lease request)
    (interceptors : ∀ i ∈ a.interceptors.atPoint .afterAuth, i.handle.Keeps (·.headers))
    (name text : String) (tells : Forwarding.Tells y name text) :
    request.headers.values name =
      if name ∈ HopByHop.listedNames y.headers then [] else [Bytes.ofText text] := by
  obtain ⟨⟨u, way⟩, uri, rfl⟩ := h.from_told
  have kept : z.headers = y.told.headers :=
    way.maintains (intercepted_maintains (fun _ _ h => h) (fun _ _ h => h)
      fun i hi => interceptors i hi _) rfl
  have listed : HopByHop.listedNames z.headers = HopByHop.listedNames y.headers := by
    rw [kept]
    exact HopByHop.listedNames_congr (Exchange.values_told_of_notMem (by decide) (by decide))
  have own : name ≠ "host" ∧ name ∉ HopByHop.fixedNames := by
    cases tells with
    | client known => decide
    | account known about valid =>
      rcases Forwarding.name_of_identity about with rfl | rfl
      · decide
      · decide
  rw [values_outgoing own.1, listed, kept, Exchange.values_told_of_tells tells]
  simp only [own.2, false_or]

/-- The headers that no one but the gateway may write. -/
def guardedNames : List String :=
  ["authorization", Forwarding.accountIdHeader, Forwarding.accountRolesHeader]

/-- Credentials stay behind, and a backend is told about an account what the gateway found out about
it, if it is told anything. Interceptors after authorization are held to add no such headers and to
leave the account. -/
theorem Forwards.values_identity (h : a.Forwards info p x t y z lease request)
    (account : ∀ i ∈ a.interceptors.atPoint .afterAuth, i.handle.Keeps (·.account))
    (headers : ∀ i ∈ a.interceptors.atPoint .afterAuth, ∀ name ∈ guardedNames, ∀ values,
      i.handle.Maintains fun x => (x.headers.values name).Sublist values) :
    request.headers.values "authorization" = [] ∧
      request.headers.values "proxy-authorization" = [] ∧
      ∀ name text, (name, text) ∈ Forwarding.identity → request.headers.values name = [] ∨
        ∃ acc, z.account = some acc ∧ request.headers.values name = [Bytes.ofText (text acc)] := by
  obtain ⟨⟨u, way⟩, uri, rfl⟩ := h.from_told
  have shrinks : ∀ name ∈ guardedNames,
      ((p.outgoing lease uri z).headers.values name).Sublist (y.told.headers.values name) := by
    intro name hn
    have before : (z.headers.values name).Sublist (y.told.headers.values name) :=
      way.maintains (intercepted_maintains (fun _ _ h => h) (fun _ _ h => h)
        fun i hi => headers i hi name hn _) (List.Sublist.refl _)
    have ne : name ≠ "host" := by
      rintro rfl
      exact absurd hn (by decide)
    exact (values_outgoing_sublist ne).trans before
  have kept : z.account = y.account :=
    way.maintains (intercepted_maintains (fun _ _ h => h) (fun _ _ h => h)
      fun i hi => account i hi _) rfl
  refine ⟨?_, ?_, fun name text about => ?_⟩
  · have shrunk := shrinks "authorization" List.mem_cons_self
    rw [Exchange.values_told_authorization] at shrunk
    exact List.sublist_nil.mp shrunk
  · rw [values_outgoing (by decide)]
    exact if_pos (.inl (by decide))
  · have guarded : name ∈ guardedNames := by
      rcases Forwarding.name_of_identity about with rfl | rfl
      · decide
      · decide
    have shrunk := shrinks name guarded
    rw [kept]
    rcases Exchange.values_told_identity (y := y) about with none | ⟨acc, known, one⟩
    · rw [none] at shrunk
      exact .inl (List.sublist_nil.mp shrunk)
    · rw [one] at shrunk
      exact (List.sublist_singleton.mp shrunk).imp_right fun whole => ⟨acc, known, whole⟩

end Assembly

/-- A gateway that takes everyone for one account and lets them do everything, with an interceptor that
edits the headers of their requests after that. -/
def openTo (account : Account) (edit : Headers → Headers) : Assembly where
  security :=
    { mechanisms := [{ authenticate := pure (.authenticated account) }], allowers := [.full true] }
  interceptors := .ofPlugins
    [{ name := "edit", behaviour := { point := .afterAuth, handle := Handler.changeHeaders edit } }]

/-- A request that such a gateway forwards comes from the account. -/
def OpenForwards (account : Account) (edit : Headers → Headers) (r : Request) (y z : Exchange)
    (request : OutgoingRequest) : Prop :=
  let lease : Lease := ⟨0, "b:80", "", false⟩
  (openTo account edit).Forwards ⟨.proxy, "/", "api", true⟩ { name := "api", pool := 0 }
      (.ofRequest r (.ofSizes 1024 64)) [⟨.lease 0, .ok lease⟩] y z lease request ∧
    y.account = some account ∧ y.headers = r.headers ∧ y.client = r.client ∧ z.account = some account

lemma exists_openForwards (account : Account) (edit : Headers → Headers) (headers : Headers)
    (client : Option SocketAddress) :
    ∃ y z request, OpenForwards account edit { headers, client } y z request := by
  have way : ∃ y, Passes ((openTo account edit).securedHead ⟨.proxy, "/", "api", true⟩)
      (.ofRequest { headers, client } (.ofSizes 1024 64)) [] y ∧
      (y.account = some account ∧ y.headers = headers ∧ y.client = client) ∧
      ∃ z, Passes ([Forwarding.credentialsStage, Forwarding.stage] ++
        (openTo account edit).intercepted .afterAuth false) y [] z ∧
        z.account = some account ∧ z.uri = {} ∧ z.relativePath = "/" := by
    iterate 9 refine Passes.exists_cons (.done _) ?_
    refine ⟨_, .nil _, ⟨rfl, rfl, rfl⟩, ?_⟩
    iterate 5 refine Passes.exists_cons (.done _) ?_
    exact ⟨_, .nil _, rfl, rfl, rfl⟩
  obtain ⟨y, head, ⟨known, same, client⟩, z, rest, still, line, below⟩ := way
  have address : Proxy.targetText ⟨0, "b:80", "", false⟩ z = "http://b:80/" := by
    rw [Proxy.targetText, line, below]
    decide
  have found : Proxy.target ⟨0, "b:80", "", false⟩ z = .ok ⟨some "http", some "b:80", "/", none⟩ := by
    rw [Proxy.target, address]
    decide
  have sent := (Proxy.asks_send_iff (p := { name := "api", pool := 0 })).mpr ⟨rfl, _, found, rfl⟩
  exact ⟨y, z, _, ⟨[], [], _, rfl, head, rest, sent⟩, known, same, client, still⟩

/-- A caller whose connection header lists what the gateway writes is forwarded without a name, roles
and an address, though all are known. -/
theorem openTo_loses_listed_headers :
    let ada : Account := .withRoles "ada" ["dev", "admin"]
    let value := "close, X-Forwarded-Account-Id, X-Forwarded-Account-Roles, X-Forwarded-For"
    let client : SocketAddress := ⟨.v4 #v[10, 0, 0, 9], 4000, 0⟩
    let r : Request := { headers := ⟨[("connection", Bytes.ofText value)]⟩, client := some client }
    ∃ y z request, OpenForwards ada id r y z request ∧
      request.headers.values Forwarding.accountIdHeader = [] ∧
      request.headers.values Forwarding.accountRolesHeader = [] ∧
      request.headers.values Forwarding.forHeader = [] := by
  intro ada value client r
  obtain ⟨y, z, request, h⟩ := exists_openForwards ada id r.headers r.client
  obtain ⟨forwards, known, same, from_client, -⟩ := id h
  have keeps : ∀ i ∈ (openTo ada id).interceptors.atPoint .afterAuth, i.handle.Keeps (·.headers) := by
    intro i hi
    obtain rfl := List.mem_singleton.mp hi
    exact fun _ => .change fun _ e => e
  have listed : HopByHop.listedNames y.headers = HopByHop.namesIn value := by
    rw [same]
    exact HopByHop.listedNames_eq (by decide) rfl
  have lost : ∀ name text, Forwarding.Tells y name text → name ∈ HopByHop.namesIn value →
      request.headers.values name = [] := by
    intro name text told hn
    rw [forwards.values_of_tells keeps name text told, listed, if_pos hn]
  have id_told : Forwarding.Tells y Forwarding.accountIdHeader ada.id :=
    .account known List.mem_cons_self (IsPrintable.isHeaderValue (by decide))
  have roles_told : Forwarding.Tells y Forwarding.accountRolesHeader ada.rolesText :=
    .account known (List.mem_cons_of_mem _ List.mem_cons_self) (IsPrintable.isHeaderValue (by decide))
  exact ⟨y, z, request, h, lost _ _ id_told (by decide), lost _ _ roles_told (by decide),
    lost _ _ (.client from_client) (by decide)⟩

/-- A caller who comes with a name, credentials and more than one role of their own is forwarded as
the account that was found out. -/
theorem openTo_keeps_identity :
    let ada : Account := .withRoles "ada" ["dev", "admin"]
    let tenant : Headers → Headers := (·.insertText "x-tenant" "acme")
    let r : Request := { headers := ⟨[("authorization", Bytes.ofText "Basic YWRhOng="),
      ("x-forwarded-account-id", Bytes.ofText "root"), ("proxy-authorization", Bytes.ofText "Basic eDp5"),
      ("x-forwarded-account-roles", Bytes.ofText "owner"),
      ("x-forwarded-account-roles", Bytes.ofText "staff")]⟩ }
    ∃ y z request, OpenForwards ada tenant r y z request ∧
      request.headers.values "authorization" = [] ∧
      request.headers.values "proxy-authorization" = [] ∧
      (∀ v ∈ request.headers.values Forwarding.accountIdHeader, v = Bytes.ofText "ada") ∧
      ∀ v ∈ request.headers.values Forwarding.accountRolesHeader, v = Bytes.ofText "admin,dev" := by
  intro ada tenant r
  obtain ⟨y, z, request, h⟩ := exists_openForwards ada tenant r.headers r.client
  have account : ∀ i ∈ (openTo ada tenant).interceptors.atPoint .afterAuth,
      i.handle.Keeps (·.account) := by
    intro i hi
    obtain rfl := List.mem_singleton.mp hi
    exact fun _ => .change fun _ e => e
  have headers : ∀ i ∈ (openTo ada tenant).interceptors.atPoint .afterAuth,
      ∀ name ∈ Assembly.guardedNames, ∀ values,
        i.handle.Maintains fun x => (x.headers.values name).Sublist values := by
    intro i hi name hn values
    obtain rfl := List.mem_singleton.mp hi
    refine .change fun x hx => ?_
    have ne : "x-tenant" ≠ name := by
      rintro rfl
      exact absurd hn (by decide)
    change ((x.headers.insertText "x-tenant" "acme").values name).Sublist values
    rw [Headers.insertText, Headers.values_insert_of_ne _ ne]
    exact hx
  obtain ⟨credentials, proxy_credentials, identity⟩ := h.1.values_identity account headers
  have told : ∀ name text, (name, text) ∈ Forwarding.identity →
      ∀ v ∈ request.headers.values name, v = Bytes.ofText (text ada) := by
    intro name text about v hv
    rcases identity name text about with none | ⟨acc, known, one⟩
    · rw [none] at hv
      cases hv
    · obtain rfl := Option.some.inj (h.2.2.2.2.symm.trans known)
      rw [one] at hv
      exact List.mem_singleton.mp hv
  have roles : ada.rolesText = "admin,dev" := by decide
  refine ⟨y, z, request, h, credentials, proxy_credentials, told _ _ List.mem_cons_self, ?_⟩
  rw [← roles]
  exact told _ _ (List.mem_cons_of_mem _ List.mem_cons_self)

end Gateway
