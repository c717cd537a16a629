import Gateway.Lifecycle.Routes
import Gateway.Proofs.Pipeline.Blueprint

/-! Plugins that obey a rule, as those that every gateway has obey each rule that edits and effects obey. All
pipelines of a gateway with such plugins obey the rule with them. -/
namespace Gateway
variable {R : Rule}

/-- What the plugins of a set do obeys the rule. -/
structure PluginSet.Obeys (R : Rule) (p : PluginSet) : Prop where
  services : ∀ s ∈ p.services, s.behaviour.handle.Obeys R
  mechanisms : ∀ m ∈ p.mechanisms, ExchangeJob.Obeys R m.behaviour.authenticate
  tokens : ∀ m, p.tokens = some m → ∀ account, (m.behaviour.issue account).Obeys R
  interceptors : ∀ i ∈ p.interceptors, i.behaviour.handle.Obeys R

section Builtin

lemma TokenManager.obeys_issue (hR : R.Admits) (account : Account) : (ofStore.issue account).Obeys R := by
  intro x t outcome run
  obtain ⟨u, v, token, rfl, asked, ended⟩ := Job.run_bind_iff.mp run
  obtain ⟨rfl, -⟩ := Job.run_done_iff.mp ended
  exact hR.followed (Job.obeys_perform hR rfl x u token asked) (hR.nothing x)

namespace Service

lemma obeys_setStatus (hR : R.Admits) (status : Status) : (setStatus status).Obeys R := .changeResponse hR

lemma obeys_setJson (hR : R.Admits) (status : Status) (value : Json) : (setJson status value).Obeys R :=
  .changeResponse hR

lemma obeys_ping (hR : R.Admits) (instanceName : String) : (ping instanceName).handle.Obeys R := by
  refine .bind hR.toComposes (.view hR.toComposes) fun x => ?_
  dsimp only
  split
  · exact obeys_setStatus hR _
  · split
    · exact obeys_setStatus hR _
    · exact obeys_setJson hR _ _

lemma obeys_roles (hR : R.Admits) : roles.handle.Obeys R := by
  refine .bind hR.toComposes (.view hR.toComposes) fun x => ?_
  split
  · exact obeys_setStatus hR _
  · split
    · exact .throw hR.toComposes _
    · exact obeys_setJson hR _ _

end Service

/-- The plugins that every gateway has obey the rule. -/
theorem Config.obeys_builtinPlugins (hR : R.Admits) (c : Config) : c.builtinPlugins.1.Obeys R where
  services := by
    simp only [builtinPlugins, builtinServices, List.forall_mem_cons]
    exact ⟨Service.obeys_ping hR _, Service.obeys_roles hR, nofun⟩
  mechanisms m hm := by
    rcases List.mem_append.mp hm with tokens | basic
    · split at tokens
      · obtain rfl := List.mem_singleton.mp tokens
        exact Mechanism.obeys_bearer hR.toComposes fun value => Job.obeys_perform hR rfl
      · cases tokens
    · obtain rfl := List.mem_singleton.mp basic
      exact Mechanism.obeys_basic hR.toComposes c.users
  tokens m hm := by
    dsimp only [builtinPlugins, builtinTokens] at hm
    split at hm
    · obtain rfl := Option.some.inj hm
      exact TokenManager.obeys_issue hR
    · cases hm
  interceptors := nofun

end Builtin

/-- All that such plugins are plugged into obeys the rule: the pipelines of their services, of proxies and
of sites, and the one for paths that no route covers. -/
theorem PluginSet.Obeys.assembly (hR : R.Admits) {p : PluginSet} (h : p.Obeys R) (c : Config) :
    let a := (p.assembly c).1
    (∀ s ∈ p.services, ∀ info content, a.Obeys R (.service info s.behaviour.stage content)) ∧
      (∀ info (q : Proxy), a.Obeys R (.proxy info q.stage)) ∧
      (∀ info (s : Site), a.Obeys R (.static info s.stage)) ∧ a.Obeys R .notManaged := by
  intro a
  have security : a.security.Obeys R :=
    { mechanisms := fun m hm => by
        obtain ⟨q, hq, rfl⟩ := List.mem_map.mp hm
        exact h.mechanisms q (List.mem_filter.mp hq).1
      tokens := fun m hm => by
        obtain ⟨q, hq, rfl⟩ := Option.map_eq_some_iff.mp hm
        exact h.tokens q (Option.filter_eq_some_iff.mp hq).1 }
  have plugged {b : Blueprint} (terminal : b.terminal.Obeys R) : a.Obeys R b :=
    ⟨InterceptorRegistry.obeys_ofPlugins h.interceptors, security, terminal⟩
  exact ⟨fun s hs _ _ => plugged (Service.obeys_stage hR.toComposes (h.services s hs)),
    fun _ q => plugged (Proxy.obeys_stage hR q), fun _ s => plugged (Site.obeys_stage hR s),
    plugged (Stage.obeys_notManaged hR.toComposes)⟩

end Gateway
