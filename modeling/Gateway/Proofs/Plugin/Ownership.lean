import Gateway.Lifecycle.Routes
import Gateway.Proofs.Server.Ownership

/-! Plugins that hold nothing for themselves, as those that every gateway has. A gateway whose plugins are
such gives back every lease. -/
namespace Gateway

/-- What the plugins of a set do owns what the response holds. -/
structure PluginSet.Owns (p : PluginSet) : Prop where
  services : ∀ s ∈ p.services, s.behaviour.handle.Owns
  mechanisms : ∀ m ∈ p.mechanisms, ExchangeJob.Owns m.behaviour.authenticate
  tokens : ∀ m, p.tokens = some m → ∀ account, (m.behaviour.issue account).Neutral
  interceptors : ∀ i ∈ p.interceptors, i.behaviour.handle.Owns

section Builtin

lemma TokenManager.neutral_verify (value : String) : (ofStore.verify value).Neutral :=
  fun _ once => ⟨trivial, fun _ _ => ⟨once, fun _ => Iff.rfl⟩⟩

lemma TokenManager.neutral_issue (account : Account) : (ofStore.issue account).Neutral := by
  have issued : (Job.perform (.issueToken account)).Neutral :=
    fun _ once => ⟨trivial, fun _ _ => ⟨once, fun _ => Iff.rfl⟩⟩
  exact issued.bind fun token => Job.neutral_pure _

lemma Mechanism.owns_basic (users : List UserEntry) : ExchangeJob.Owns (basic users).authenticate := by
  refine .bind .get fun x => ?_
  split <;> exact .pure _

lemma Mechanism.owns_bearer {tokens : TokenManager} (h : ∀ value, (tokens.verify value).Neutral) :
    ExchangeJob.Owns (bearer tokens).authenticate := by
  refine .bind .get fun x => ?_
  split
  · refine .bind (.lift (h _)) fun account => ?_
    split <;> exact .pure _
  · exact .pure _

namespace Service

lemma owns_setStatus (status : Status) : (setStatus status).Owns := .change fun _ => .inl rfl

lemma owns_setJson (status : Status) (value : Json) : (setJson status value).Owns :=
  .change fun _ => .inr rfl

lemma owns_ping (instanceName : String) : (ping instanceName).handle.Owns := by
  refine .bind .view fun x => ?_
  dsimp only
  split
  · exact owns_setStatus _
  · split
    · exact owns_setStatus _
    · exact owns_setJson _ _

lemma owns_roles : roles.handle.Owns := by
  refine .bind .view fun x => ?_
  split
  · exact owns_setStatus _
  · split
    · exact .throw _
    · exact owns_setJson _ _

end Service

/-- The plugins that every gateway has are of this kind. -/
theorem Config.owns_builtinPlugins (c : Config) : c.builtinPlugins.1.Owns where
  services := by
    simp only [builtinPlugins, builtinServices, List.forall_mem_cons]
    exact ⟨Service.owns_ping _, Service.owns_roles, nofun⟩
  mechanisms m hm := by
    rcases List.mem_append.mp hm with tokens | basic
    · split at tokens
      · obtain rfl := List.mem_singleton.mp tokens
        exact Mechanism.owns_bearer TokenManager.neutral_verify
      · cases tokens
    · obtain rfl := List.mem_singleton.mp basic
      exact Mechanism.owns_basic c.users
  tokens m hm := by
    dsimp only [builtinPlugins, builtinTokens] at hm
    split at hm
    · obtain rfl := Option.some.inj hm
      exact TokenManager.neutral_issue
    · cases hm
  interceptors := nofun

end Builtin

namespace Registry
variable {a : Assembly} {r s : Registry} {route : Route} {pools : List Pool}

/-- Every service route of the registry is of this kind. -/
structure ServicesOwn (a : Assembly) (r : Registry) : Prop where
  assembly : r.assembly = a
  routes : ∀ route, route ∈ r.exact ∨ route ∈ r.below → route.ServiceOwns a
  table : ∀ t, r.table = some t → t.ServicesOwn a

namespace ServicesOwn

lemma bind (h : ServicesOwn a r) (owns : route.ServiceOwns a) (ok : (r.bind route pools).1 = .ok s) :
    ServicesOwn a s := by
  have added := addsOnly_of_bind ok
  refine ⟨added.assembly.trans h.assembly, fun other listed => ?_, added.table ▸ h.table⟩
  have parts {list : List Route} (hm : other ∈ list ++ [route]) : other ∈ list ∨ other = route :=
    (List.mem_append.mp hm).imp id List.mem_singleton.mp
  rcases listed with hm | hm
  · rcases parts (added.exact hm) with old | rfl
    · exact h.routes other (.inl old)
    · exact owns
  · rcases parts (added.below hm) with old | rfl
    · exact h.routes other (.inr old)
    · exact owns

lemma service (h : ServicesOwn a r) {p : Plugin Service} (owns : p.behaviour.handle.Owns)
    (ok : (r.registerService p).1 = .ok s) : ServicesOwn a s := by
  unfold registerService at ok
  split at ok
  · cases ok
    exact h
  · split at ok
    · cases ok
    · split at ok
      · cases ok
      · exact h.bind (fun _ => ⟨p, owns, by rw [h.assembly]; rfl⟩) ok

/-- Other routes are not meant. -/
lemma other (h : ServicesOwn a r) (kind : route.kind ≠ .service)
    (ok : (r.bind route pools).1 = .ok s) : ServicesOwn a s :=
  h.bind (fun service => absurd service kind) ok

lemma plugServices (h : ServicesOwn a r) {services : List (Plugin Service)}
    (own : ∀ p ∈ services, p.behaviour.handle.Owns) : ServicesOwn a (r.plugServices services).1 :=
  plugAll_induct services
    (fun _ p hp hr => keep_induct _ hr fun _ ok => hr.service (own p hp) ok) h

lemma plugProxies (h : ServicesOwn a r) (entries : List (Option Config.Proxy)) :
    ServicesOwn a (r.plugProxies entries).1 := by
  refine plugAll_induct entries (fun r e _ hr => ?_) h
  cases e with
  | none => exact hr
  | some p =>
    refine keep_induct _ hr fun _ ok => ?_
    obtain ⟨location, name, backends, ok⟩ := exists_of_bindProxy ok
    obtain ⟨route, pools, kind, -, ok⟩ := binds_of_registerProxy ok
    exact hr.other (by rw [kind]; decide) ok

lemma plugStatics (h : ServicesOwn a r) (mounts : List Config.StaticMount) :
    ServicesOwn a (r.plugStatics mounts).1 := by
  refine plugAll_induct mounts (fun r m _ hr => keep_induct _ hr fun _ ok => ?_) h
  obtain ⟨route, kind, -, ok⟩ := binds_of_registerStatic ok
  exact hr.other (by rw [kind]; decide) ok

lemma freeze (h : ServicesOwn a r) : ServicesOwn a r.freeze.1 := by
  unfold Registry.freeze
  split
  · exact h
  · refine { h with table := fun t ht => ?_ }
    obtain rfl := Option.some.inj ht
    exact fun route listed => h.routes route (listed.imp_right RoutingTable.mem_below_ofRoutes.mp)

end ServicesOwn
end Registry

namespace PluginSet
variable {p : PluginSet}

theorem Owns.assembly (h : p.Owns) (c : Config) : (p.assembly c).1.Owns where
  security :=
    { mechanisms := fun m hm => by
        obtain ⟨q, hq, rfl⟩ := List.mem_map.mp hm
        exact h.mechanisms q (List.mem_filter.mp hq).1
      tokens := fun m hm => by
        obtain ⟨q, hq, rfl⟩ := Option.map_eq_some_iff.mp hm
        exact h.tokens q (Option.filter_eq_some_iff.mp hq).1 }
  interceptors i hi := h.interceptors i (List.mem_filter.mp hi).1

/-- All service routes of a gateway with such plugins are made for them. -/
theorem Owns.servicesOwn (h : p.Owns) (c : Config) (files : FileTree) :
    (p.routes c files).table.ServicesOwn (p.assembly c).1 := by
  have start : Registry.ServicesOwn (p.assembly c).1 { assembly := (p.assembly c).1, files } :=
    ⟨rfl, fun route listed => (listed.elim nofun nofun), nofun⟩
  have bound := ((start.plugServices h.services).plugProxies c.proxyEntries).plugStatics c.mounts
  exact bound.freeze.table _ (Registry.table_freeze _)

end PluginSet
end Gateway
