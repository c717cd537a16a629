import Gateway.Proofs.Job.Asking
import Gateway.Proofs.Pipeline.Challenges

/-! The decision table of the security stage: what becomes of an exchange, row by row, for any plugins
that the stage is made of. -/
namespace Gateway

namespace Handler
variable {α β : Type} {x z : Exchange} {t : Trace} {r : Except Failure β}

/-- A job on the exchange does not fail, so the handler goes on with what it made. -/
lemma runs_exchange_bind_iff {j : ExchangeJob α} {k : α → Handler β} :
    Runs (liftM j >>= k) x t r z ↔
      ∃ u v a y, t = u ++ v ∧ j.Runs x u a y ∧ (k a).Runs y v r z := by
  rw [runs_bind_iff]
  constructor
  · rintro (⟨u, v, a, y, rfl, hu, hv⟩ | ⟨e, -, he⟩)
    · obtain ⟨_, same, hu⟩ := runs_exchange_iff.mp hu
      obtain rfl := Except.ok.inj same
      exact ⟨u, v, a, y, rfl, hu, hv⟩
    · obtain ⟨_, same, -⟩ := runs_exchange_iff.mp he
      cases same
  · rintro ⟨u, v, a, y, rfl, hu, hv⟩
    exact .inl ⟨u, v, a, y, rfl, runs_exchange_iff.mpr ⟨a, rfl, hu⟩, hv⟩

/-- The same for a job that does not see the exchange. -/
lemma runs_job_bind_iff {j : Job α} {k : α → Handler β} :
    Runs (liftM j >>= k) x t r z ↔ ∃ u v a, t = u ++ v ∧ Job.Run j u a ∧ (k a).Runs x v r z := by
  have both : Runs (liftM j >>= k) x t r z ↔ _ :=
    runs_exchange_bind_iff (j := (liftM j : ExchangeJob α))
  simp only [both, ExchangeJob.runs_lift_iff]
  constructor
  · rintro ⟨u, v, a, _, rfl, ⟨hu, rfl⟩, hv⟩
    exact ⟨u, v, a, rfl, hu, hv⟩
  · rintro ⟨u, v, a, rfl, hu, hv⟩
    exact ⟨u, v, a, x, rfl, ⟨hu, rfl⟩, hv⟩

end Handler

namespace Exchange
variable {x : Exchange} {l : List Bytes} {h : Headers}

/-- The exchange with other headers on its response. -/
def withResponseHeaders (x : Exchange) (h : Headers) : Exchange :=
  { x with response := { x.response with headers := h } }

/-- Headers hold nothing that would be given back. -/
lemma runs_changeResponseHeaders_iff {f : Headers → Headers} {y : Exchange} {t : Trace}
    {r : Except Failure Unit} : (Handler.changeResponseHeaders f).Runs x t r y ↔
      t = [] ∧ r = .ok () ∧ y = x.withResponseHeaders (f x.response.headers) := by
  have nothing : dropped x (x.withResponseHeaders (f x.response.headers)) = [] := by
    simp +contextual [dropped, withResponseHeaders]
  have ran : (Handler.changeResponseHeaders f).Runs x t r y ↔ _ := Handler.runs_change_iff
  rw [ran, and_left_comm]
  change t = Trace.releases (dropped x (x.withResponseHeaders _)) ∧ _ ↔ _
  rw [nothing]
  rfl

/-- The exchange with challenges behind those of its response. -/
def challengedWith (x : Exchange) (l : List Bytes) : Exchange :=
  x.withResponseHeaders (l.foldl (fun h v => h.append "www-authenticate" v) x.response.headers)

lemma values_challengedWith (name : String) : (x.challengedWith l).response.headers.values name =
    x.response.headers.values name ++ if name = "www-authenticate" then l else [] := by
  have appended (h : Headers) : (l.foldl (fun h v => h.append "www-authenticate" v) h).values name =
      h.values name ++ if name = "www-authenticate" then l else [] := by
    induction l generalizing h with
    | nil => simp
    | cons v rest ih =>
      rw [List.foldl_cons, ih, Headers.values_append]
      by_cases same : "www-authenticate" = name
      · simp [same]
      · simp [same, Ne.symm same]
  exact appended x.response.headers

end Exchange

namespace SecurityChain
variable {mechanisms : List (Plugin Mechanism)} {authorizers : List (Plugin Authorizer)}
  {tokens : Option (Plugin TokenManager)} {c : SecurityChain} {x y z : Exchange} {t u v : Trace}
  {outcome : AuthOutcome}

/-- The enabled mechanisms are asked in order. The first one that finds credentials decides. -/
inductive Consults : List (Plugin Mechanism) → Exchange → Trace → AuthOutcome → Exchange → Prop where
  | nobody (x : Exchange) : Consults [] x [] .notAttempted x
  | disabled {p : Plugin Mechanism} {rest : List (Plugin Mechanism)} {x y : Exchange} {t : Trace}
      {outcome : AuthOutcome} (off : p.enabled = false) (others : Consults rest x t outcome y) :
      Consults (p :: rest) x t outcome y
  | passes {p : Plugin Mechanism} {rest : List (Plugin Mechanism)} {x y z : Exchange} {u v : Trace}
      {outcome : AuthOutcome} (on : p.enabled = true)
      (asked : p.behaviour.authenticate.Runs x u .notAttempted y)
      (others : Consults rest y v outcome z) : Consults (p :: rest) x (u ++ v) outcome z
  | decides {p : Plugin Mechanism} {rest : List (Plugin Mechanism)} {x y : Exchange} {t : Trace}
      {outcome : AuthOutcome} (on : p.enabled = true)
      (asked : p.behaviour.authenticate.Runs x t outcome y) (attempted : outcome ≠ .notAttempted) :
      Consults (p :: rest) x t outcome y

/-- The challenges of the enabled mechanisms that have one, in order. -/
def challengesOf (mechanisms : List (Plugin Mechanism)) : List Bytes :=
  (mechanisms.filter (·.enabled)).filterMap (·.behaviour.challenge)

/-- The route is secured, and no allower grants the exchange or some vetoer forbids it. -/
def Denied (authorizers : List (Plugin Authorizer)) (x : Exchange) : Prop :=
  isSecured x = true ∧ ¬(SomeGrants authorizers x ∧ NoneForbids authorizers x)

/-- Someone could be allowed, the caller is nobody, and there is a way to become somebody. -/
def Invites (mechanisms : List (Plugin Mechanism)) (authorizers : List (Plugin Authorizer))
    (x : Exchange) : Prop :=
  (∃ p ∈ authorizers, p.enabled = true ∧ p.behaviour.kind = .allower) ∧ x.account = none ∧
    ∃ p ∈ mechanisms, p.enabled = true

/-- A token is issued to a known caller by an enabled manager. Without either, or if the manager fails,
the exchange stays as it is. -/
inductive Issues (tokens : Option (Plugin TokenManager)) (x : Exchange) : Trace → Exchange → Prop where
  | token {p : Plugin TokenManager} {a : Account} {t : Trace} {token : Token} (manager : tokens = some p)
      (on : p.enabled = true) (known : x.account = some a)
      (issued : Job.Run (p.behaviour.issue a) t (.ok token)) :
      Issues tokens x t (x.withResponseHeaders (tokenHeaders token x.response.headers))
  | failure {p : Plugin TokenManager} {a : Account} {t : Trace} {e : String} (manager : tokens = some p)
      (on : p.enabled = true) (known : x.account = some a)
      (failed : Job.Run (p.behaviour.issue a) t (.error e)) :
      Issues tokens x (t ++ [⟨.emit (.warning "Cannot issue auth token"), ()⟩]) x
  | nothing (idle : x.account = none ∨ ∀ p, tokens = some p → p.enabled = false) : Issues tokens x [] x

/-- What becomes of an exchange after authentication. -/
inductive Decides (mechanisms : List (Plugin Mechanism)) (authorizers : List (Plugin Authorizer))
    (tokens : Option (Plugin TokenManager)) (x : Exchange) :
    Trace → Except Failure Flow → Exchange → Prop where
  | unauthenticated (denied : Denied authorizers x) (invited : Invites mechanisms authorizers x) :
      Decides mechanisms authorizers tokens x [] (.error .authentication)
        (x.challengedWith (challengesOf mechanisms))
  | forbidden (denied : Denied authorizers x) (uninvited : ¬Invites mechanisms authorizers x) :
      Decides mechanisms authorizers tokens x [] (.error .authorization) x
  | proceeds {t : Trace} {y : Exchange} (allowed : ¬Denied authorizers x) (issues : Issues tokens x t y) :
      Decides mechanisms authorizers tokens x t (.ok .proceed) y

/-- What becomes of an exchange in the security stage. -/
inductive Settles (mechanisms : List (Plugin Mechanism)) (authorizers : List (Plugin Authorizer))
    (tokens : Option (Plugin TokenManager)) (x : Exchange) :
    Trace → Except Failure Flow → Exchange → Prop where
  | rejected {t : Trace} {y : Exchange} (wrong : Consults mechanisms x t .failed y) :
      Settles mechanisms authorizers tokens x t (.error .authentication)
        (y.challengedWith (challengesOf mechanisms))
  | authenticated {u v : Trace} {y z : Exchange} {a : Account} {r : Except Failure Flow}
      (found : Consults mechanisms x u (.authenticated a) y)
      (decided : Decides mechanisms authorizers tokens { y with account := some a } v r z) :
      Settles mechanisms authorizers tokens x (u ++ v) r z
  | unattempted {u v : Trace} {y z : Exchange} {r : Except Failure Flow}
      (none : Consults mechanisms x u .notAttempted y)
      (decided : Decides mechanisms authorizers tokens y v r z) :
      Settles mechanisms authorizers tokens x (u ++ v) r z

section Consulting

lemma consults_cons_of_off {p : Plugin Mechanism} (off : p.enabled = false) :
    Consults (p :: mechanisms) x t outcome y ↔ Consults mechanisms x t outcome y := by
  constructor
  · intro h
    cases h with
    | disabled _ others => exact others
    | passes on => cases off.symm.trans on
    | decides on => cases off.symm.trans on
  · exact .disabled off

lemma consults_cons_of_on {p : Plugin Mechanism} (on : p.enabled = true) :
    Consults (p :: mechanisms) x t outcome z ↔
      (∃ u v y, t = u ++ v ∧ p.behaviour.authenticate.Runs x u .notAttempted y ∧
        Consults mechanisms y v outcome z) ∨
      p.behaviour.authenticate.Runs x t outcome z ∧ outcome ≠ .notAttempted := by
  constructor
  · intro h
    cases h with
    | disabled off => cases off.symm.trans on
    | passes _ asked others => exact .inl ⟨_, _, _, rfl, asked, others⟩
    | decides _ asked attempted => exact .inr ⟨asked, attempted⟩
  · rintro (⟨u, v, y, rfl, asked, others⟩ | ⟨asked, attempted⟩)
    · exact .passes on asked others
    · exact .decides on asked attempted

/-- What all enabled mechanisms maintain holds when they have been asked. -/
lemma Consults.maintains {P : Exchange → Prop} (h : Consults mechanisms x t outcome y)
    (mechanisms : ∀ p ∈ mechanisms, p.enabled = true → p.behaviour.authenticate.Maintains P)
    (hx : P x) : P y := by
  induction h with
  | nobody => exact hx
  | disabled off others ih => exact ih (fun p hp => mechanisms p (List.mem_cons_of_mem _ hp)) hx
  | passes on asked others ih =>
    exact ih (fun p hp => mechanisms p (List.mem_cons_of_mem _ hp))
      (mechanisms _ List.mem_cons_self on hx asked)
  | decides on asked => exact mechanisms _ List.mem_cons_self on hx asked

lemma runs_challenge_iff {α : Type} {r : Except Failure α} : Handler.Runs c.challenge x t r y ↔
    t = [] ∧ r = .error .authentication ∧ y = x.challengedWith c.challenges := by
  rw [challenge, Handler.runs_bind_iff]
  simp only [Exchange.runs_changeResponseHeaders_iff, Handler.runs_throw_iff]
  constructor
  · rintro (⟨_, _, _, _, rfl, ⟨rfl, -, rfl⟩, rfl, rfl, rfl⟩ | ⟨_, -, -, no, -⟩)
    · exact ⟨rfl, rfl, rfl⟩
    · cases no
  · rintro ⟨rfl, rfl, rfl⟩
    exact .inl ⟨[], [], (), _, rfl, ⟨rfl, trivial, rfl⟩, rfl, rfl, rfl⟩

/-- What an outcome makes of the exchange that the mechanisms left. -/
def concluded (c : SecurityChain) (y : Exchange) : AuthOutcome → Except Failure Unit × Exchange
  | .notAttempted => (.ok (), y)
  | .authenticated account => (.ok (), { y with account := some account })
  | .failed => (.error .authentication, y.challengedWith c.challenges)

/-- A mechanism that finds credentials leaves nothing to those behind it. -/
lemma runs_attempted_iff {rest : List Mechanism} {r : Except Failure Unit}
    (attempted : outcome ≠ .notAttempted) :
    Handler.Runs (match outcome with
      | .notAttempted => c.authenticate rest
      | .authenticated account => Handler.change fun x => { x with account := some account }
      | .failed => c.challenge) y t r z ↔ t = [] ∧ (r, z) = c.concluded y outcome := by
  cases outcome with
  | notAttempted => exact absurd rfl attempted
  | authenticated account =>
    have nothing : Exchange.dropped y { y with account := some account } = [] :=
      Exchange.dropped_eq_nil rfl
    have ran : Handler.Runs (Handler.change fun x => { x with account := some account }) y t r z ↔ _ :=
      Handler.runs_change_iff
    rw [ran, nothing, and_left_comm, concluded, Prod.mk.injEq]
    rfl
  | failed => rw [runs_challenge_iff, concluded, Prod.mk.injEq]

/-- Authentication goes by the outcome of the mechanisms. -/
lemma runs_authenticate_iff {r : Except Failure Unit} :
    (c.authenticate (enabled mechanisms)).Runs x t r z ↔
      ∃ outcome y, Consults mechanisms x t outcome y ∧ (r, z) = c.concluded y outcome := by
  induction mechanisms generalizing x t with
  | nil =>
    change Handler.Runs (pure ()) x t r z ↔ _
    rw [Handler.runs_pure_iff]
    constructor
    · rintro ⟨rfl, rfl, rfl⟩
      exact ⟨_, _, .nobody z, rfl⟩
    · rintro ⟨_, _, asked, result⟩
      cases asked
      obtain ⟨rfl, rfl⟩ := Prod.mk.inj result
      exact ⟨rfl, rfl, rfl⟩
  | cons p rest ih =>
    cases on : p.enabled with
    | false =>
      have others : enabled (p :: rest) = enabled rest := by simp [enabled, on]
      simp only [others, ih, consults_cons_of_off on]
    | true =>
      have others : enabled (p :: rest) = p.behaviour :: enabled rest := by simp [enabled, on]
      have first : (c.authenticate (p.behaviour :: enabled rest)).Runs x t r z ↔ _ :=
        Handler.runs_exchange_bind_iff
      simp only [others, first, consults_cons_of_on on]
      constructor
      · rintro ⟨u, v, outcome, y, rfl, asked, ran⟩
        by_cases attempted : outcome = .notAttempted
        · subst attempted
          obtain ⟨outcome, y', behind, result⟩ := ih.mp ran
          exact ⟨outcome, y', .inl ⟨u, v, y, rfl, asked, behind⟩, result⟩
        · obtain ⟨rfl, result⟩ := (runs_attempted_iff attempted).mp ran
          exact ⟨outcome, y, .inr ⟨by rwa [List.append_nil], attempted⟩, result⟩
      · rintro ⟨outcome, y, ⟨u, v, y', rfl, asked, behind⟩ | ⟨asked, attempted⟩, result⟩
        · exact ⟨u, v, _, y', rfl, asked, ih.mpr ⟨outcome, y, behind, result⟩⟩
        · exact ⟨t, [], outcome, y, (List.append_nil t).symm, asked,
            (runs_attempted_iff attempted).mpr ⟨rfl, result⟩⟩

end Consulting

section Authorizing

lemma challenges_ofPlugins : (ofPlugins mechanisms authorizers tokens).1.challenges =
    challengesOf mechanisms := by
  simp only [challenges, ofPlugins, enabled, challengesOf, List.filterMap_map, Function.comp_def]

lemma asksForCredentials_iff :
    (ofPlugins mechanisms authorizers tokens).1.asksForCredentials x = true ↔
      Invites mechanisms authorizers x := by
  have someone {α : Type} (list : List α) : (!list.isEmpty) = true ↔ ∃ a, a ∈ list := by
    cases list <;> simp
  simp only [asksForCredentials, hasAllowers, ofPlugins, Bool.and_eq_true, someone, List.mem_filter,
    mem_enabled_iff, decide_eq_true_eq, Exchange.isAuthenticated, Bool.not_eq_true',
    Option.isSome_eq_false_iff, Option.isNone_iff_eq_none, Invites, and_assoc]
  refine and_congr ?_ (and_congr_right fun _ => ?_)
  · constructor
    · rintro ⟨_, ⟨p, hp, on, rfl⟩, kind⟩
      exact ⟨p, hp, on, kind⟩
    · rintro ⟨p, hp, on, kind⟩
      exact ⟨_, ⟨p, hp, on, rfl⟩, kind⟩
  · constructor
    · rintro ⟨_, p, hp, on, -⟩
      exact ⟨p, hp, on⟩
    · rintro ⟨p, hp, on⟩
      exact ⟨_, p, hp, on, rfl⟩

/-- Authorization goes by the authorizers and, if they deny, by whether credentials could help. -/
lemma runs_authorize_iff {r : Except Failure Unit} :
    (ofPlugins mechanisms authorizers tokens).1.authorize.Runs x t r z ↔ t = [] ∧
      (Denied authorizers x ∧ Invites mechanisms authorizers x ∧ r = .error .authentication ∧
          z = x.challengedWith (challengesOf mechanisms) ∨
        Denied authorizers x ∧ ¬Invites mechanisms authorizers x ∧ r = .error .authorization ∧ z = x ∨
        ¬Denied authorizers x ∧ r = .ok () ∧ z = x) := by
  have denied : (isSecured x && !(ofPlugins mechanisms authorizers tokens).1.isAllowed x) = true ↔
      Denied authorizers x := by
    rw [Bool.and_eq_true, Bool.not_eq_true', ← Bool.not_eq_true, isAllowed_ofPlugins_iff, Denied]
  have ran : (ofPlugins mechanisms authorizers tokens).1.authorize.Runs x t r z ↔ _ :=
    Handler.runs_view_bind_iff
  rw [ran]
  split
  · next no =>
    have no := denied.mp no
    split
    · next invited =>
      have invited := asksForCredentials_iff.mp invited
      simp [runs_challenge_iff, challenges_ofPlugins, no, invited]
    · next uninvited =>
      have uninvited := mt asksForCredentials_iff.mpr uninvited
      simp [no, uninvited]
  · next yes =>
    have yes := mt denied.mpr yes
    simp [yes]

lemma tokens_ofPlugins {manager : TokenManager} :
    (ofPlugins mechanisms authorizers tokens).1.tokens = some manager ↔
      ∃ p, tokens = some p ∧ p.enabled = true ∧ p.behaviour = manager := by
  simp only [ofPlugins, Option.map_eq_some_iff, Option.filter_eq_some_iff, and_assoc]

lemma issues_iff_of_known {p : Plugin TokenManager} {a : Account} (manager : tokens = some p)
    (on : p.enabled = true) (known : x.account = some a) : Issues tokens x t z ↔
      (∃ token, Job.Run (p.behaviour.issue a) t (.ok token) ∧
        z = x.withResponseHeaders (tokenHeaders token x.response.headers)) ∨
      ∃ u e, t = u ++ [⟨.emit (.warning "Cannot issue auth token"), ()⟩] ∧
        Job.Run (p.behaviour.issue a) u (.error e) ∧ z = x := by
  subst manager
  constructor
  · intro h
    cases h with
    | token manager _ known' issued =>
      obtain rfl := Option.some.inj manager
      obtain rfl := Option.some.inj (known.symm.trans known')
      exact .inl ⟨_, issued, rfl⟩
    | failure manager _ known' failed =>
      obtain rfl := Option.some.inj manager
      obtain rfl := Option.some.inj (known.symm.trans known')
      exact .inr ⟨_, _, rfl, failed, rfl⟩
    | nothing idle =>
      rcases idle with nobody | off
      · cases nobody.symm.trans known
      · cases on.symm.trans (off p rfl)
  · rintro (⟨token, issued, rfl⟩ | ⟨u, e, rfl, failed, rfl⟩)
    · exact .token rfl on known issued
    · exact .failure rfl on known failed

lemma issues_iff_of_idle (idle : x.account = none ∨ ∀ p, tokens = some p → p.enabled = false) :
    Issues tokens x t z ↔ t = [] ∧ z = x := by
  have nobody {p : Plugin TokenManager} {a : Account} (manager : tokens = some p)
      (on : p.enabled = true) (known : x.account = some a) : False := by
    rcases idle with none | off
    · cases none.symm.trans known
    · cases on.symm.trans (off p manager)
  constructor
  · intro h
    cases h with
    | token manager on known => exact (nobody manager on known).elim
    | failure manager on known => exact (nobody manager on known).elim
    | nothing => exact ⟨rfl, rfl⟩
  · rintro ⟨rfl, rfl⟩
    exact .nothing idle

/-- Tokens are issued to known callers. -/
lemma runs_issueToken_iff {r : Except Failure Unit} :
    (ofPlugins mechanisms authorizers tokens).1.issueToken.Runs x t r z ↔
      r = .ok () ∧ Issues tokens x t z := by
  have ran : (ofPlugins mechanisms authorizers tokens).1.issueToken.Runs x t r z ↔ _ :=
    Handler.runs_view_bind_iff
  rw [ran]
  split
  · next manager a enabled known =>
    obtain ⟨p, found, on, rfl⟩ := tokens_ofPlugins.mp enabled
    rw [Handler.runs_job_bind_iff, issues_iff_of_known found on known]
    constructor
    · rintro ⟨u, v, outcome, rfl, issued, ran⟩
      cases outcome with
      | ok token =>
        obtain ⟨rfl, rfl, rfl⟩ := Exchange.runs_changeResponseHeaders_iff.mp ran
        rw [List.append_nil]
        exact ⟨rfl, .inl ⟨token, issued, rfl⟩⟩
      | error e =>
        obtain ⟨_, rfl, warned, rfl⟩ := Handler.runs_job_iff.mp ran
        rw [Job.run_perform_iff.mp warned]
        exact ⟨rfl, .inr ⟨u, e, rfl, issued, rfl⟩⟩
    · rintro ⟨rfl, ⟨token, issued, rfl⟩ | ⟨u, e, rfl, failed, rfl⟩⟩
      · exact ⟨t, [], _, (List.append_nil t).symm, issued,
          Exchange.runs_changeResponseHeaders_iff.mpr ⟨rfl, rfl, rfl⟩⟩
      · exact ⟨u, _, _, rfl, failed,
          Handler.runs_job_iff.mpr ⟨(), rfl, Job.run_perform_iff.mpr rfl, rfl⟩⟩
  · next idle =>
    have nobody : x.account = none ∨ ∀ p, tokens = some p → p.enabled = false := by
      by_contra! both
      obtain ⟨known, p, manager, on⟩ := both
      obtain ⟨a, known⟩ := Option.ne_none_iff_exists'.mp known
      exact idle _ a (tokens_ofPlugins.mpr ⟨p, manager, by simpa using on, rfl⟩) known
    rw [Handler.runs_pure_iff, issues_iff_of_idle nobody, and_left_comm]

end Authorizing

/-- What follows authentication goes by the second part of the table. -/
lemma runs_decision_iff {r : Except Failure Flow} :
    let c := (ofPlugins mechanisms authorizers tokens).1
    Handler.Runs (do c.authorize; c.issueToken; pure Flow.proceed) x t r z ↔
      Decides mechanisms authorizers tokens x t r z := by
  intro c
  rw [Handler.runs_bind_iff]
  constructor
  · rintro (⟨u, v, _, y, rfl, hu, hv⟩ | ⟨e, rfl, he⟩)
    · obtain ⟨rfl, ⟨-, -, no, -⟩ | ⟨-, -, no, -⟩ | ⟨allowed, -, rfl⟩⟩ := runs_authorize_iff.mp hu
      · cases no
      · cases no
      · rcases Handler.runs_bind_iff.mp hv with ⟨u, w, _, y', rfl, hu, hw⟩ | ⟨e, rfl, he⟩
        · obtain ⟨rfl, rfl, rfl⟩ := Handler.runs_pure_iff.mp hw
          rw [List.append_nil]
          exact .proceeds allowed (runs_issueToken_iff.mp hu).2
        · cases (runs_issueToken_iff.mp he).1
    · obtain ⟨rfl, ⟨denied, invited, same, rfl⟩ | ⟨denied, uninvited, same, rfl⟩ | ⟨-, no, -⟩⟩ :=
        runs_authorize_iff.mp he
      · obtain rfl := Except.error.inj same
        exact .unauthenticated denied invited
      · obtain rfl := Except.error.inj same
        exact .forbidden denied uninvited
      · cases no
  · intro h
    cases h with
    | unauthenticated denied invited =>
      exact .inr ⟨_, rfl, runs_authorize_iff.mpr ⟨rfl, .inl ⟨denied, invited, rfl, rfl⟩⟩⟩
    | forbidden denied uninvited =>
      exact .inr ⟨_, rfl, runs_authorize_iff.mpr ⟨rfl, .inr (.inl ⟨denied, uninvited, rfl, rfl⟩)⟩⟩
    | proceeds allowed issues =>
      refine .inl ⟨[], t, (), x, rfl, runs_authorize_iff.mpr ⟨rfl, .inr (.inr ⟨allowed, rfl, rfl⟩)⟩, ?_⟩
      exact Handler.runs_bind_iff.mpr (.inl ⟨t, [], (), z, (List.append_nil t).symm,
        runs_issueToken_iff.mpr ⟨rfl, issues⟩, Handler.runs_pure_iff.mpr ⟨rfl, rfl, rfl⟩⟩)

/-- The stage runs as the table says. -/
theorem runs_stage_iff {r : Except Failure Flow} :
    (ofPlugins mechanisms authorizers tokens).1.stage.handle.Runs x t r z ↔
      Settles mechanisms authorizers tokens x t r z := by
  have ran : (ofPlugins mechanisms authorizers tokens).1.stage.handle.Runs x t r z ↔ _ :=
    Handler.runs_bind_iff
  rw [ran]
  constructor
  · rintro (⟨u, v, _, y, rfl, hu, hv⟩ | ⟨e, rfl, he⟩)
    · have decided := runs_decision_iff.mp hv
      obtain ⟨outcome, y', consulted, result⟩ := runs_authenticate_iff.mp hu
      obtain ⟨ok, rfl⟩ := Prod.mk.inj result
      cases outcome with
      | notAttempted => exact .unattempted consulted decided
      | authenticated a => exact .authenticated consulted decided
      | failed => cases ok
    · obtain ⟨outcome, y', consulted, result⟩ := runs_authenticate_iff.mp he
      obtain ⟨error, rfl⟩ := Prod.mk.inj result
      cases outcome with
      | notAttempted => cases error
      | authenticated a => cases error
      | failed =>
        obtain rfl := Except.error.inj error
        rw [challenges_ofPlugins]
        exact .rejected consulted
  · intro h
    cases h with
    | rejected wrong =>
      exact .inr ⟨_, rfl, runs_authenticate_iff.mpr
        ⟨.failed, _, wrong, by rw [concluded, challenges_ofPlugins]⟩⟩
    | authenticated found decided =>
      exact .inl ⟨_, _, (), _, rfl, runs_authenticate_iff.mpr ⟨.authenticated _, _, found, rfl⟩,
        runs_decision_iff.mpr decided⟩
    | unattempted none decided =>
      exact .inl ⟨_, _, (), _, rfl, runs_authenticate_iff.mpr ⟨.notAttempted, _, none, rfl⟩,
        runs_decision_iff.mpr decided⟩

/-- The response asks for credentials with all challenges if the caller has to authenticate, and is left
with those it had otherwise. -/
lemma Decides.challenges {r : Except Failure Flow}
    (h : Decides mechanisms authorizers tokens x t r z) : z.challenges =
      x.challenges ++ if r = .error .authentication then challengesOf mechanisms else [] := by
  cases h with
  | unauthenticated => exact Exchange.values_challengedWith _
  | forbidden => simp
  | proceeds _ issues =>
    simp only [reduceCtorEq, if_false, List.append_nil]
    cases issues with
    | token => exact challenges_tokenHeaders _ _
    | failure => rfl
    | nothing => rfl

lemma Settles.challenges {r : Except Failure Flow}
    (h : Settles mechanisms authorizers tokens x t r z)
    (keep : ∀ p ∈ mechanisms, p.enabled = true → p.behaviour.authenticate.Keeps Exchange.challenges) :
    z.challenges =
      x.challenges ++ if r = .error .authentication then challengesOf mechanisms else [] := by
  have kept {t : Trace} {outcome : AuthOutcome} {y : Exchange}
      (asked : Consults mechanisms x t outcome y) : y.challenges = x.challenges :=
    asked.maintains (fun p hp on => keep p hp on _) rfl
  cases h with
  | rejected wrong =>
    rw [← kept wrong]
    exact Exchange.values_challengedWith _
  | authenticated found decided => exact (kept found) ▸ decided.challenges
  | unattempted none decided => exact (kept none) ▸ decided.challenges

end SecurityChain
end Gateway
