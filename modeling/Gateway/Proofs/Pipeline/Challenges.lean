import Gateway.Proofs.Http.Headers
import Gateway.Proofs.Pipeline.Reception
import Gateway.Proofs.Security.Chain

/-! The challenges of a response. The security stage adds those of its mechanisms when it asks for
credentials, and no other stage of the gateway does. -/
namespace Gateway

namespace Exchange

/-- What the response asks the caller for. -/
def challenges (x : Exchange) : List Bytes := x.response.headers.values "www-authenticate"

/-- What the caller learns about credentials. -/
def verdict (x : Exchange) : Status × List Bytes := (x.response.status, x.challenges)

/-- A failure takes no challenge away. -/
lemma challenges_fail (x : Exchange) (f : Failure) : (x.fail f).challenges = x.challenges :=
  Response.values_setJson _ _ (by decide)

end Exchange

namespace SecurityChain
variable {c : SecurityChain} {list : List Mechanism} {x y : Exchange} {t : Trace} {P : Exchange → Prop}

lemma values_addChallenges (h : Headers) :
    (c.addChallenges h).values "www-authenticate" = h.values "www-authenticate" ++ c.challenges := by
  unfold addChallenges
  induction c.challenges generalizing h with
  | nil => exact (List.append_nil _).symm
  | cons v rest ih =>
    rw [List.foldl_cons, ih, Headers.values_append, if_pos rfl, List.append_assoc, List.singleton_append]

/-- Who is told to authenticate gets the challenges of all mechanisms, in order. -/
lemma runs_challenge {α : Type} {r : Except Failure α} (h : Handler.Runs c.challenge x t r y) :
    r = .error .authentication ∧ y.challenges = x.challenges ++ c.challenges := by
  rcases Handler.runs_bind_iff.mp h with ⟨u, v, _, z, rfl, hu, hv⟩ | ⟨e, -, he⟩
  · obtain ⟨-, -, rfl⟩ := Handler.runs_change_iff.mp hu
    obtain ⟨-, rfl, rfl⟩ := Handler.runs_throw_iff.mp hv
    exact ⟨rfl, values_addChallenges _⟩
  · cases (Handler.runs_change_iff.mp he).1

/-- Authentication succeeds, or some mechanism rejects the credentials it found. -/
lemma runs_authenticate {r : Except Failure Unit}
    (mechanisms : ∀ m ∈ list, m.authenticate.Maintains P)
    (account : ∀ x a, P x → P { x with account := some a }) (hx : P x)
    (h : (c.authenticate list).Runs x t r y) :
    r = .ok () ∧ P y ∨
      r = .error .authentication ∧ ∃ z, P z ∧ y.challenges = z.challenges ++ c.challenges := by
  induction list generalizing x t with
  | nil =>
    obtain ⟨-, rfl, rfl⟩ := Handler.runs_pure_iff.mp h
    exact .inl ⟨rfl, hx⟩
  | cons m rest ih =>
    obtain ⟨first, others⟩ := List.forall_mem_cons.mp mechanisms
    rcases Handler.runs_bind_iff.mp h with ⟨u, v, outcome, z, rfl, hu, hv⟩ | ⟨e, -, he⟩
    · obtain ⟨_, same, asked⟩ := Handler.runs_exchange_iff.mp hu
      have hz : P z := first hx asked
      match outcome with
      | .notAttempted => exact ih others hz hv
      | .authenticated a =>
        obtain ⟨rfl, -, rfl⟩ := Handler.runs_change_iff.mp hv
        exact .inl ⟨rfl, account z a hz⟩
      | .failed =>
        obtain ⟨rfl, told⟩ := runs_challenge hv
        exact .inr ⟨rfl, z, hz, told⟩
    · obtain ⟨_, same, -⟩ := Handler.runs_exchange_iff.mp he
      cases same

lemma runs_authorize {r : Except Failure Unit} (h : c.authorize.Runs x t r y) :
    r = .ok () ∧ y = x ∨ r = .error .authorization ∧ y = x ∨
      r = .error .authentication ∧ y.challenges = x.challenges ++ c.challenges := by
  have ran := Handler.runs_view_bind_iff.mp h
  split at ran
  · split at ran
    · exact .inr (.inr (runs_challenge ran))
    · obtain ⟨-, rfl, rfl⟩ := Handler.runs_throw_iff.mp ran
      exact .inr (.inl ⟨rfl, rfl⟩)
  · obtain ⟨-, rfl, rfl⟩ := Handler.runs_pure_iff.mp ran
    exact .inl ⟨rfl, rfl⟩

lemma challenges_tokenHeaders (token : Token) (h : Headers) :
    (tokenHeaders token h).values "www-authenticate" = h.values "www-authenticate" := by
  rw [tokenHeaders, Headers.insertText, Headers.values_insert_of_ne _ (by decide),
    Headers.values_insertText?, if_neg fun both => absurd both.1 (by decide)]

lemma runs_issueToken {r : Except Failure Unit} (h : c.issueToken.Runs x t r y) :
    r = .ok () ∧ y.challenges = x.challenges := by
  have ran := Handler.runs_view_bind_iff.mp h
  split at ran
  · rcases Handler.runs_bind_iff.mp ran with ⟨u, v, outcome, z, rfl, hu, hv⟩ | ⟨e, -, he⟩
    · obtain ⟨_, -, -, rfl⟩ := Handler.runs_job_iff.mp hu
      match outcome with
      | .ok token =>
        obtain ⟨rfl, -, rfl⟩ := Handler.runs_change_iff.mp hv
        exact ⟨rfl, challenges_tokenHeaders token _⟩
      | .error _ =>
        obtain ⟨_, rfl, -, rfl⟩ := Handler.runs_job_iff.mp hv
        exact ⟨rfl, rfl⟩
    · obtain ⟨_, same, -⟩ := Handler.runs_job_iff.mp he
      cases same
  · obtain ⟨-, rfl, rfl⟩ := Handler.runs_pure_iff.mp ran
    exact ⟨rfl, rfl⟩

/-- The security stage proceeds, asks for credentials with all challenges, or forbids. -/
theorem runs_stage {r : Except Failure Flow}
    (mechanisms : ∀ m ∈ c.mechanisms, m.authenticate.Maintains P)
    (account : ∀ x a, P x → P { x with account := some a }) (hx : P x)
    (h : c.stage.handle.Runs x t r y) :
    (r = .ok .proceed ∧ ∃ z, P z ∧ y.challenges = z.challenges) ∨
      (r = .error .authentication ∧ ∃ z, P z ∧ y.challenges = z.challenges ++ c.challenges) ∨
        r = .error .authorization := by
  rcases Handler.runs_bind_iff.mp h with ⟨u, v, _, z, rfl, hu, hv⟩ | ⟨e, rfl, he⟩
  · obtain ⟨-, hz⟩ | ⟨same, -⟩ := runs_authenticate mechanisms account hx hu
    · rcases Handler.runs_bind_iff.mp hv with ⟨u, w, _, m, rfl, hu, hw⟩ | ⟨e, rfl, he⟩
      · obtain ⟨-, rfl⟩ | ⟨same, -⟩ | ⟨same, -⟩ := runs_authorize hu
        · rcases Handler.runs_bind_iff.mp hw with ⟨u, v, _, n, rfl, hu, hv⟩ | ⟨e, -, he⟩
          · obtain ⟨-, rfl, rfl⟩ := Handler.runs_pure_iff.mp hv
            exact .inl ⟨rfl, m, hz, (runs_issueToken hu).2⟩
          · cases (runs_issueToken he).1
        · cases same
        · cases same
      · obtain ⟨same, -⟩ | ⟨same, -⟩ | ⟨same, told⟩ := runs_authorize he
        · cases same
        · cases same
          exact .inr (.inr rfl)
        · cases same
          exact .inr (.inl ⟨rfl, z, hz, told⟩)
    · cases same
  · obtain ⟨same, -⟩ | ⟨same, told⟩ := runs_authenticate mechanisms account hx he
    · cases same
    · cases same
      exact .inr (.inl ⟨rfl, told⟩)

end SecurityChain

namespace Pipeline
variable {p : Pipeline} {s : Stage} {f : Failure} {x m z : Exchange} {t : Trace}

/-- With the answers `t`, the run on `x` fails with `f` in the stage `s`, which leaves `m`, and comes to its
end with `z`. -/
def FailsIn (p : Pipeline) (x : Exchange) (t : Trace) (s : Stage) (f : Failure) (m z : Exchange) : Prop :=
  ∃ before after u v w y, p.stages = before ++ s :: after ∧
    t = u ++ (v ++ Trace.releases (Exchange.dropped m (m.fail f))) ++ w ∧ Passes before x u y ∧
      s.handle.Runs y v (.error f) m ∧ (p.finish (s :: before.reverse)).Runs (m.fail f) w () z

lemma FailsIn.run (h : p.FailsIn x t s f m z) : Job.Run (p.execute x) t z := by
  obtain ⟨before, after, u, v, w, y, stages, rfl, way, failed, rest⟩ := h
  rw [List.append_assoc]
  refine (run_execute_iff_of_passes stages way).mpr ⟨_, w, _, _, rfl, ?_, rest⟩
  rw [runStages_cons, Job.run_bind_iff]
  refine ⟨v, _, (.error f, m), rfl, failed, Job.run_bind_iff.mpr ⟨_, [], ((), m.fail f),
    (List.append_nil _).symm, ?_, .done _⟩⟩
  exact ExchangeJob.runs_change_iff.mpr ⟨rfl, rfl⟩

end Pipeline

/-- The response interceptors leave what the caller learns of a failure, also when it has to be in memory. -/
lemma InterceptorRegistry.Prepares.verdict {r : InterceptorRegistry} {x y : Exchange} {f : Failure}
    {list : List Interceptor} {t : Trace} (h : r.Prepares (x.fail f) list t y) :
    y.verdict = (x.fail f).verdict := by
  cases h with
  | again | mark | read => rfl
  | lost _ _ why _ => cases why

namespace Stage
variable {l : List Bytes}

lemma carries_challenges_trace {names : List String} (silent : "www-authenticate" ∉ names) :
    (Trace.stage names).Carries (·.challenges = l) := by
  have noted (entries : List (String × Bytes)) (x : Exchange) (h : ∀ e ∈ entries, e.1 ∈ names) :
      (entries.foldl Trace.addFound x).challenges = x.challenges := by
    induction entries generalizing x with
    | nil => rfl
    | cons e rest ih =>
      obtain ⟨first, others⟩ := List.forall_mem_cons.mp h
      have other : e.1 ≠ "www-authenticate" := fun same => silent (same ▸ first)
      rw [List.foldl_cons, ih _ others]
      exact Headers.values_insert_of_ne _ other _
  refine carries_of_maintains (.bind (.change fun x hx => ?_) fun _ => .pure _)
  rw [← hx, Trace.traced]
  split
  · rfl
  · refine noted _ x fun e he => ?_
    obtain ⟨n, hn, found⟩ := List.mem_filterMap.mp he
    obtain ⟨v, -, rfl⟩ := Option.map_eq_some_iff.mp found
    exact hn

lemma carries_challenges_poweredBy : poweredBy.Carries (·.challenges = l) := by
  refine carries_change fun x hx => ?_
  rw [← hx]
  exact Headers.values_insert_of_ne _ (by decide) _

lemma carries_challenges_contentReader (point : InterceptPoint) (r : InterceptorRegistry) (terminal : Bool) :
    (contentReader point r terminal).Carries (·.challenges = l) := by
  refine carries_of_maintains (.bind .view fun _ => ?_)
  split
  · refine .bind (.attempt fun x hx => ?_) fun _ => .pure _
    obtain ⟨c, read⟩ := x.readContent_eq
    rw [read]
    exact hx
  · exact .pure _

lemma carries_challenges_queryRebuilder : queryRebuilder.Carries (·.challenges = l) := by
  intro x t y run hx
  rw [Exchange.rebuildQuery_eq (runs_queryRebuilder_ok run)]
  exact hx

end Stage

lemma SecurityChain.maintains_of_obeys {c : SecurityChain} {f : Exchange → List Bytes} {l : List Bytes}
    (h : c.Obeys (.keeping f)) : ∀ m ∈ c.mechanisms, m.authenticate.Maintains fun x => f x = l :=
  fun m hm _ _ _ _ hx run => (h.mechanisms m hm run).trans hx

namespace Assembly
variable {a : Assembly} {b : Blueprint} {s : Stage} {f : Failure} {x m z : Exchange} {t : Trace}
  {l : List Bytes}

/-- No stage before the answer adds a challenge when it proceeds, if no plugin does. -/
lemma carries_challenges_upstream
    (silent : "www-authenticate" ∉ (Trace.headerNames a.log.traceHeaders).1)
    (quiet : a.Obeys (.keeping Exchange.challenges) b) :
    ∀ part ∈ b.upstream a, (part.stage a.interceptors).Carries (·.challenges = l) := by
  have security : a.security.stage.Carries (·.challenges = l) := by
    intro x t y run hx
    obtain ⟨-, z, hz, same⟩ | ⟨off, -⟩ | off :=
      SecurityChain.runs_stage (SecurityChain.maintains_of_obeys quiet.security) (fun _ _ => id) hx run
    · exact same.trans hz
    · cases off
    · cases off
  have interceptors (point : InterceptPoint) :
      (Stage.interceptors point a.interceptors).Carries (·.challenges = l) :=
    Stage.carries_of_maintains (Stage.interceptors_maintains fun i hi _ _ _ _ hx run =>
      ((quiet.interceptors point i hi).runs run).trans hx)
  exact carries_upstream (fun _ _ => id) (fun _ _ => id) (Stage.carries_challenges_trace silent)
    Stage.carries_challenges_poweredBy (Stage.carries_challenges_contentReader · _ ·) interceptors
    Stage.carries_challenges_queryRebuilder security

/-- What the caller learns of a failure is its status, with the challenges that the failed stage left. -/
lemma verdict_of_failsIn (terminal : b.terminal.complete.Obeys (.keeping Exchange.verdict))
    (unaltered : ∀ i ∈ a.interceptors.atPoint .response,
      (Pipeline.runResponseInterceptor i).Obeys (.keeping Exchange.verdict))
    (h : (a.build b).FailsIn x t s f m z) : z.verdict = (f.status, m.challenges) := by
  obtain ⟨before, after, u, v, w, y, stages, -, -, -, rest⟩ := h
  have content (x : Exchange) : x.releaseContent.verdict = x.verdict := by
    rw [Exchange.verdict, Exchange.challenges, x.response_releaseContent]
    rfl
  have ran : ∀ s' ∈ s :: before.reverse, s' ∈ (a.build b).stages := by
    intro s' hs
    rw [stages]
    rcases List.mem_cons.mp hs with rfl | hs
    · exact List.mem_append_right _ List.mem_cons_self
    · exact List.mem_append_left _ (List.mem_reverse.mp hs)
  have kept : z.verdict = (m.fail f).verdict :=
    finish_keeps content terminal (fun _ _ _ prepared => prepared.verdict) unaltered ran rest
  rw [kept, Exchange.verdict, Exchange.challenges_fail]
  rfl

/-- Where no plugin and no trace adds a challenge, a stage is handed the challenges of the request. -/
lemma challenges_of_passes (silent : "www-authenticate" ∉ (Trace.headerNames a.log.traceHeaders).1)
    (quiet : a.Obeys (.keeping Exchange.challenges) b) {before after : List Stage}
    (stages : (a.build b).stages = before ++ s :: after) (way : Passes before x t z) :
    z.challenges = x.challenges := by
  refine way.carries (P := (·.challenges = x.challenges)) (fun s hs => ?_) rfl
  have mem : s ∈ (a.build b).stages := stages ▸ List.mem_append_left _ hs
  rw [build_stages, Blueprint.parts] at mem
  obtain ⟨part, hp, rfl⟩ := List.mem_map.mp mem
  rcases List.mem_append.mp hp with hp | hp
  · exact carries_challenges_upstream silent quiet part hp
  · obtain rfl := List.mem_singleton.mp hp
    exact fun _ _ _ run start => (quiet.terminal.handle.runs run).trans start

end Assembly

namespace Service

lemma quiet_roles : roles.handle.Obeys (.keeping Exchange.challenges) := by
  have hR := Rule.composes_keeping Exchange.challenges
  refine .bind hR (.view hR) fun x => ?_
  split
  · exact .exchange (.change fun x => rfl)
  · split
    · exact .throw hR _
    · exact .exchange (.change fun x => Response.values_setJson _ _ (by decide))

/-- Callers without an account are told to authenticate, and nothing else. -/
lemma runs_roles {x : Exchange} (get : x.method = .get) (nobody : x.account = none) :
    roles.stage.handle.Runs x [] (.error .authentication) x := by
  have failed : roles.handle.Runs x [] (.error .authentication) x := by
    refine Handler.runs_view_bind_iff.mpr ?_
    rw [if_neg (not_not.mpr get), nobody]
    exact Handler.runs_throw_iff.mpr ⟨rfl, rfl, rfl⟩
  exact Handler.runs_bind_iff.mpr (.inr ⟨_, rfl, failed⟩)

end Service

namespace Assembly
variable {mechanisms : List (Plugin Mechanism)} {authorizers : List (Plugin Authorizer)}
  {tokens : Option (Plugin TokenManager)}

/-- A service that asks for authentication does not challenge. If the security stage asks for it, the
response has the challenges of all enabled mechanisms, in their order and behind whatever was there; if
the service does, it has what the service left. So where neither the request, a trace nor a plugin
brings any, it has exactly these challenges in the one case and none in the other, as for callers without
an account who ask for their roles. Interceptors are held to leave the status and the challenges. -/
theorem challenged_by_security (a : Assembly)
    (security : a.security = (SecurityChain.ofPlugins mechanisms authorizers tokens).1)
    (info : RouteInfo) (service : Service) (content : Bool)
    (unaltered : ∀ i ∈ a.interceptors.atPoint .response,
      (Pipeline.runResponseInterceptor i).Obeys (.keeping Exchange.verdict)) :
    let b := Blueprint.service info service.stage content
    let p := a.build b
    let asked := (mechanisms.filter (·.enabled)).filterMap (·.behaviour.challenge)
    (∀ x t m z, p.FailsIn x t a.security.stage .authentication m z →
      z.response.status = .unauthorized ∧ asked <:+ z.challenges) ∧
    (∀ x t m z, p.FailsIn x t service.stage .authentication m z →
      z.response.status = .unauthorized ∧ z.challenges = m.challenges) ∧
    ("www-authenticate" ∉ (Trace.headerNames a.log.traceHeaders).1 →
      a.Obeys (.keeping Exchange.challenges) b → ∀ x t m z, x.challenges = [] →
        (p.FailsIn x t a.security.stage .authentication m z → z.challenges = asked) ∧
        (p.FailsIn x t service.stage .authentication m z → z.challenges = [])) ∧
    (service = .roles → ∀ x t y, p.HandsLast x t y → y.method = .get → y.account = none →
      ∃ u z, p.FailsIn x u service.stage .authentication y z) := by
  intro b p asked
  have challenges : a.security.challenges = asked := by
    rw [security, SecurityChain.challenges, SecurityChain.ofPlugins, SecurityChain.enabled, List.filterMap_map]
    rfl
  have verdict {s : Stage} {x m z : Exchange} {t : Trace} (h : p.FailsIn x t s .authentication m z) :
      z.response.status = .unauthorized ∧ z.challenges = m.challenges := by
    have both : z.verdict = (.unauthorized, m.challenges) :=
      verdict_of_failsIn (ExchangeJob.Obeys.pure (Rule.composes_keeping _) ()) unaltered h
    exact ⟨congrArg Prod.fst both, congrArg Prod.snd both⟩
  refine ⟨fun x t m z h => ?_, fun x t m z h => verdict h, fun silent quiet x t m z fresh => ⟨fun h => ?_,
    fun h => ?_⟩, fun same x t y h get nobody => ?_⟩
  · obtain ⟨status, told⟩ := verdict h
    obtain ⟨before, after, u, v, w, y, -, -, -, failed, -⟩ := h
    obtain ⟨off, -⟩ | ⟨-, n, -, added⟩ | off := SecurityChain.runs_stage (P := fun _ => True)
      (fun _ _ _ _ _ _ _ _ => trivial) (fun _ _ => id) trivial failed
    · cases off
    · exact ⟨status, n.challenges, by rw [told, added, challenges]⟩
    · cases off
  · obtain ⟨-, told⟩ := verdict h
    obtain ⟨before, after, u, v, w, y, stages, -, way, failed, -⟩ := h
    have handed := (challenges_of_passes silent quiet stages way).trans fresh
    obtain ⟨off, -⟩ | ⟨-, n, nothing, added⟩ | off := SecurityChain.runs_stage
      (SecurityChain.maintains_of_obeys quiet.security) (fun _ _ => id) handed failed
    · cases off
    · rw [told, added, nothing, challenges, List.nil_append]
    · cases off
  · obtain ⟨-, told⟩ := verdict h
    obtain ⟨before, after, u, v, w, y, stages, -, way, failed, -⟩ := h
    rw [told, quiet.terminal.handle.runs failed, challenges_of_passes silent quiet stages way, fresh]
  · obtain ⟨before, last, stages, way⟩ := h
    obtain rfl : service.stage = last := by
      have whole : p.stages = _ ++ [service.stage] := rfl
      exact List.singleton_inj.mp (List.append_inj' (whole.symm.trans stages) rfl).2
    obtain ⟨w, ⟨⟩, z, rest⟩ :=
      (p.finish (service.stage :: before.reverse)).exists_runs (y.fail .authentication)
    exact ⟨_, z, before, [], t, [], w, y, stages, rfl, way, same ▸ Service.runs_roles get nobody, rest⟩

/-- Two mechanisms have a challenge, and a caller without an account who asks for the roles gets neither. -/
theorem challenged_by_security_for_roles :
    let mechanisms : List (Plugin Mechanism) :=
      [{ name := "token", behaviour := .bearer .ofStore }, { name := "basic", behaviour := .basic [] }]
    let a : Assembly := { security := (SecurityChain.ofPlugins mechanisms [] none).1 }
    let info : RouteInfo := ⟨.service, "/roles", "roles", false⟩
    let p := a.service info Service.roles.stage false
    a.security.challenges.length = 2 ∧ ∃ t m z,
      p.FailsIn (.ofRequest {} {}) t Service.roles.stage .authentication m z ∧
        z.response.status = .unauthorized ∧ z.challenges = [] := by
  intro mechanisms a info p
  have handed : ∃ y, p.HandsLast (.ofRequest {} {}) [] y ∧ y.method = .get ∧ y.account = none := by
    obtain ⟨y, way, asked⟩ : ∃ y, Passes p.stages.dropLast (.ofRequest {} {}) [] y ∧
        y.method = .get ∧ y.account = none := by
      iterate 12 refine Passes.exists_cons (.done _) ?_
      exact ⟨_, .nil _, rfl, rfl⟩
    exact ⟨y, ⟨_, _, rfl, way⟩, asked⟩
  have quiet : a.Obeys (.keeping Exchange.challenges) (.service info Service.roles.stage false) := by
    have hR := Rule.composes_keeping Exchange.challenges
    refine ⟨InterceptorRegistry.obeys_ofPlugins (List.forall_mem_nil _), ⟨?_, nofun⟩,
      Service.obeys_stage hR Service.quiet_roles⟩
    refine List.forall_mem_cons.mpr ⟨Mechanism.obeys_bearer hR fun _ _ _ _ _ => rfl,
      List.forall_mem_singleton.mpr (Mechanism.obeys_basic hR [])⟩
  obtain ⟨y, way, get, nobody⟩ := handed
  have security : a.security = (SecurityChain.ofPlugins mechanisms [] none).1 := rfl
  obtain ⟨-, status, exact_, roles⟩ := challenged_by_security a security info .roles false nofun
  obtain ⟨t, z, failed⟩ := roles rfl _ _ y way get nobody
  exact ⟨rfl, t, y, z, failed, (status _ _ _ _ failed).1, (exact_ nofun quiet _ _ _ _ rfl).2 failed⟩

end Assembly
end Gateway
