import Gateway.Proofs.Security.Credentials
import Gateway.Proofs.Security.Decision

/-! The two mechanisms for users and for tokens. A request names one scheme at most, so at most one of them finds
credentials, and it does not matter which of them is asked first. -/
namespace Gateway

namespace Mechanism
variable {x y : Exchange} {t : Trace} {outcome : AuthOutcome} {scheme scheme' : String} {users : List UserEntry}
  {tokens : TokenManager}

lemma attempts_unique (noBlank : ' ' ∉ scheme.toList.map Char.toLower)
    (noBlank' : ' ' ∉ scheme'.toList.map Char.toLower) (h : Attempts x scheme) (h' : Attempts x scheme') :
    scheme.toList.map Char.toLower = scheme'.toList.map Char.toLower := by
  obtain ⟨value, rest, first, named⟩ := h
  obtain ⟨value', rest', first', named'⟩ := h'
  obtain rfl := Option.some.inj (first.symm.trans first')
  obtain ⟨given, whole, same, fresh⟩ := named.toList noBlank
  obtain ⟨given', whole', same', fresh'⟩ := named'.toList noBlank'
  have split := (splitAtFirst_eq_some_iff.mpr ⟨whole, fresh⟩).symm.trans
    (splitAtFirst_eq_some_iff.mpr ⟨whole', fresh'⟩)
  obtain ⟨rfl, -⟩ := Prod.mk.inj (Option.some.inj split)
  exact same.symm.trans same'

/-- What becomes of a request by the users' names and passwords. -/
def basicOutcome (users : List UserEntry) (x : Exchange) : AuthOutcome :=
  match credentials? x "Basic" with
  | some encoded => verifyBasic users encoded
  | none => .notAttempted

lemma runs_get_bind_iff {α : Type} {k : Exchange → ExchangeJob α} {a : α} :
    (get >>= k : ExchangeJob α).Runs x t a y ↔ (k x).Runs x t a y := by
  rw [ExchangeJob.runs_bind_iff]
  constructor
  · rintro ⟨u, v, _, _, rfl, got, ran⟩
    obtain ⟨rfl, rfl, rfl⟩ := ExchangeJob.runs_get_iff.mp got
    exact ran
  · intro ran
    exact ⟨[], t, x, x, rfl, ExchangeJob.runs_get_iff.mpr ⟨rfl, rfl, rfl⟩, ran⟩

lemma runs_basic_iff : (basic users).authenticate.Runs x t outcome y ↔
    t = [] ∧ outcome = basicOutcome users x ∧ y = x := by
  have ran : (basic users).authenticate.Runs x t outcome y ↔ _ := runs_get_bind_iff
  rw [ran, basicOutcome]
  cases credentials? x "Basic" with
  | some encoded => exact ExchangeJob.runs_pure_iff
  | none => exact ExchangeJob.runs_pure_iff

lemma basicOutcome_eq_notAttempted_iff : basicOutcome users x = .notAttempted ↔ ¬Attempts x "Basic" := by
  rw [← credentials?_eq_none_iff (by decide), basicOutcome]
  split
  · next encoded found => simp [found, verifyBasic_ne_notAttempted]
  · next nothing => simp [nothing]

lemma basicOutcome_eq_authenticated_iff (named : WellNamed users) {a : Account} :
    basicOutcome users x = .authenticated a ↔ ∃ u ∈ users, a = .withRoles u.userid u.roles ∧
      Offers x "Basic" (basicCredentials u.userid u.password) := by
  have offered (u : UserEntry) : Offers x "Basic" (basicCredentials u.userid u.password) ↔
      credentials? x "Basic" = some (basicCredentials u.userid u.password) :=
    (credentials?_eq_some_iff (by decide) (basicCredentials_bare u.userid u.password)).symm
  simp only [offered]
  rw [basicOutcome]
  split
  · next encoded found => simp only [verifyBasic_eq_authenticated_iff named, found, Option.some.injEq]
  · next nothing => simp [nothing]

lemma basicOutcome_eq_failed_iff (named : WellNamed users) :
    basicOutcome users x = .failed ↔ Attempts x "Basic" ∧
      ¬∃ u ∈ users, Offers x "Basic" (basicCredentials u.userid u.password) := by
  have tried : basicOutcome users x = .notAttempted ↔ _ := basicOutcome_eq_notAttempted_iff
  have granted {a : Account} : basicOutcome users x = .authenticated a ↔ _ :=
    basicOutcome_eq_authenticated_iff named
  cases outcome : basicOutcome users x with
  | notAttempted => exact iff_of_false nofun fun h => tried.mp outcome h.1
  | authenticated a =>
    obtain ⟨u, member, -, offered⟩ := granted.mp outcome
    exact iff_of_false nofun fun h => h.2 ⟨u, member, offered⟩
  | failed =>
    refine iff_of_true rfl ⟨?_, ?_⟩
    · by_contra no
      cases outcome.symm.trans (tried.mpr no)
    · rintro ⟨u, member, offered⟩
      cases outcome.symm.trans (granted.mpr ⟨u, member, rfl, offered⟩)

/-- Without an attempt the mechanism asks nobody and leaves the exchange alone. -/
def Passes (m : Mechanism) (x : Exchange) : Prop :=
  ∀ t outcome y, m.authenticate.Runs x t outcome y ↔ t = [] ∧ outcome = .notAttempted ∧ y = x

lemma basic_passes (h : ¬Attempts x "Basic") : (basic users).Passes x := by
  have nothing : credentials? x "Basic" = none := (credentials?_eq_none_iff (by decide)).mpr h
  intro t outcome y
  rw [runs_basic_iff, basicOutcome, nothing]

lemma bearer_passes (h : ¬Attempts x "Bearer") : (bearer tokens).Passes x := by
  have nothing : credentials? x "Bearer" = none := (credentials?_eq_none_iff (by decide)).mpr h
  intro t outcome y
  have ran : (bearer tokens).authenticate.Runs x t outcome y ↔ _ := runs_get_bind_iff
  rw [ran, nothing, ExchangeJob.runs_pure_iff]

/-- A request names one scheme, so one of the two mechanisms passes. -/
lemma basic_or_bearer_passes (x : Exchange) (users : List UserEntry) (tokens : TokenManager) :
    (basic users).Passes x ∨ (bearer tokens).Passes x := by
  by_cases named : Attempts x "Basic"
  · refine .inr (bearer_passes fun other => ?_)
    have same := attempts_unique (by decide) (by decide) named other
    revert same
    decide
  · exact .inl (basic_passes named)

end Mechanism

namespace SecurityChain
open Mechanism
variable {mechanisms mechanisms' : List (Plugin Mechanism)} {p q : Plugin Mechanism} {x y : Exchange} {t : Trace}
  {outcome : AuthOutcome}

lemma consults_cons_of_passes (passes : p.behaviour.Passes x) :
    Consults (p :: mechanisms) x t outcome y ↔ Consults mechanisms x t outcome y := by
  cases on : p.enabled with
  | false => exact consults_cons_of_off on
  | true =>
    rw [consults_cons_of_on on]
    constructor
    · rintro (⟨u, v, _, rfl, asked, others⟩ | ⟨asked, attempted⟩)
      · obtain ⟨rfl, -, rfl⟩ := (passes _ _ _).mp asked
        exact others
      · exact absurd ((passes _ _ _).mp asked).2.1 attempted
    · intro others
      exact .inl ⟨[], t, x, rfl, (passes _ _ _).mpr ⟨rfl, rfl, rfl⟩, others⟩

lemma consults_cons_congr {p : Plugin Mechanism}
    (same : ∀ x t outcome y, Consults mechanisms x t outcome y ↔ Consults mechanisms' x t outcome y) :
    Consults (p :: mechanisms) x t outcome y ↔ Consults (p :: mechanisms') x t outcome y := by
  cases on : p.enabled with
  | false => rw [consults_cons_of_off on, consults_cons_of_off on, same]
  | true => simp only [consults_cons_of_on on, same]

/-- Of two neighbours that leave the exchange alone, of which one passes, either may be asked first. -/
lemma consults_swap (leaves : q.behaviour.authenticate.Maintains (· = x)) (passes : p.behaviour.Passes x) :
    Consults (p :: q :: mechanisms) x t outcome y ↔ Consults (q :: p :: mechanisms) x t outcome y := by
  rw [consults_cons_of_passes passes]
  cases on : q.enabled with
  | false => rw [consults_cons_of_off on, consults_cons_of_off on, consults_cons_of_passes passes]
  | true =>
    rw [consults_cons_of_on on, consults_cons_of_on on]
    refine or_congr_left (exists_congr fun u => exists_congr fun v => exists_congr fun y' =>
      and_congr_right fun _ => and_congr_right fun asked => ?_)
    obtain rfl := leaves rfl asked
    exact (consults_cons_of_passes passes).symm

lemma consults_append_congr (before : List (Plugin Mechanism))
    (same : ∀ x t outcome y, Consults mechanisms x t outcome y ↔ Consults mechanisms' x t outcome y) :
    Consults (before ++ mechanisms) x t outcome y ↔ Consults (before ++ mechanisms') x t outcome y := by
  induction before generalizing x t outcome y with
  | nil => exact same x t outcome y
  | cons p before ih => exact consults_cons_congr fun _ _ _ _ => ih

/-- The exchanges are the same but for the order of the challenges put on their responses. -/
def SameUpToOrder (z z' : Exchange) : Prop :=
  ∃ (y : Exchange) (l l' : List Bytes), l.Perm l' ∧ z = y.challengedWith l ∧ z' = y.challengedWith l'

lemma SameUpToOrder.refl (z : Exchange) : SameUpToOrder z z := ⟨z, [], [], .nil, rfl, rfl⟩

/-- The same mechanisms in another order, which find the same credentials. -/
structure Reordered (mechanisms mechanisms' : List (Plugin Mechanism)) : Prop where
  perm : mechanisms.Perm mechanisms'
  consults : ∀ x t outcome y, Consults mechanisms x t outcome y ↔ Consults mechanisms' x t outcome y

variable {authorizers : List (Plugin Authorizer)} {tokens : Option (Plugin TokenManager)} {r : Except Failure Flow}
  {z : Exchange}

lemma Reordered.decides (h : Reordered mechanisms mechanisms')
    (decided : Decides mechanisms authorizers tokens x t r z) :
    ∃ z', Decides mechanisms' authorizers tokens x t r z' ∧ SameUpToOrder z z' := by
  have challenges : (challengesOf mechanisms).Perm (challengesOf mechanisms') :=
    (h.perm.filter _).filterMap _
  have invites : Invites mechanisms authorizers x ↔ Invites mechanisms' authorizers x := by
    simp only [Invites, h.perm.mem_iff]
  cases decided with
  | unauthenticated denied invited =>
    exact ⟨_, .unauthenticated denied (invites.mp invited), x, _, _, challenges, rfl, rfl⟩
  | forbidden denied uninvited =>
    exact ⟨x, .forbidden denied (mt invites.mpr uninvited), .refl x⟩
  | proceeds allowed issues => exact ⟨z, .proceeds allowed issues, .refl z⟩

/-- The stage does the same with the mechanisms in the other order, up to the order of its challenges. -/
lemma Reordered.runs_stage (h : Reordered mechanisms mechanisms')
    (ran : (ofPlugins mechanisms authorizers tokens).1.stage.handle.Runs x t r z) :
    ∃ z', (ofPlugins mechanisms' authorizers tokens).1.stage.handle.Runs x t r z' ∧ SameUpToOrder z z' := by
  simp only [runs_stage_iff] at ran ⊢
  cases ran with
  | rejected wrong =>
    exact ⟨_, .rejected ((h.consults ..).mp wrong), _, _, _, (h.perm.filter _).filterMap _, rfl, rfl⟩
  | authenticated found decided =>
    obtain ⟨z', decided, same⟩ := h.decides decided
    exact ⟨z', .authenticated ((h.consults ..).mp found) decided, same⟩
  | unattempted none decided =>
    obtain ⟨z', decided, same⟩ := h.decides decided
    exact ⟨z', .unattempted ((h.consults ..).mp none) decided, same⟩

lemma SameUpToOrder.account {z z' : Exchange} (h : SameUpToOrder z z') : z'.account = z.account := by
  obtain ⟨y, l, l', -, rfl, rfl⟩ := h
  rfl

/-- Users' and tokens' mechanisms that stand side by side may change places. -/
lemma reordered_of_neighbours {users : List UserEntry} {manager : TokenManager}
    (before after : List (Plugin Mechanism)) (hp : p.behaviour = .basic users) (hq : q.behaviour = .bearer manager) :
    Reordered (before ++ p :: q :: after) (before ++ q :: p :: after) where
  perm := (List.Perm.swap q p after).append_left before
  consults x t outcome y := by
    refine consults_append_congr before fun x t outcome y => ?_
    rcases basic_or_bearer_passes x users manager with passes | passes
    · exact consults_swap (hq ▸ bearer_maintains manager) (hp ▸ passes)
    · exact (consults_swap (hp ▸ basic_maintains users) (hq ▸ passes)).symm

lemma Reordered.symm (h : Reordered mechanisms mechanisms') : Reordered mechanisms' mechanisms :=
  ⟨h.perm.symm, fun x t outcome y => (h.consults x t outcome y).symm⟩

end SecurityChain

namespace Mechanism
open SecurityChain

/-- With users whose names are distinct and have no colon, the mechanism for users comes to one outcome on every
exchange, asks nobody and leaves the exchange alone. It grants an account exactly to the user whose name and
password are in the first authorization header, it is not tried exactly if that header does not name its scheme,
and it fails otherwise. It or the mechanism for tokens passes on every exchange, so the stage comes to the same
account or failure whichever of the two stands first. -/
theorem basic_decides (users : List UserEntry) (named : WellNamed users) (x : Exchange) :
    (∃ outcome, (∀ t r y, (basic users).authenticate.Runs x t r y ↔ t = [] ∧ r = outcome ∧ y = x) ∧
      (∀ a, outcome = .authenticated a ↔ ∃ u ∈ users, a = .withRoles u.userid u.roles ∧
        Offers x "Basic" (basicCredentials u.userid u.password)) ∧
      (outcome = .notAttempted ↔ ¬Attempts x "Basic") ∧
      (outcome = .failed ↔ Attempts x "Basic" ∧
        ¬∃ u ∈ users, Offers x "Basic" (basicCredentials u.userid u.password))) ∧
    ∀ manager, ((basic users).Passes x ∨ (bearer manager).Passes x) ∧
      ∀ (p q : Plugin Mechanism), p.behaviour = basic users → q.behaviour = bearer manager →
      ∀ before after authorizers tokens t r,
        let stage := (ofPlugins (before ++ p :: q :: after) authorizers tokens).1.stage
        let stage' := (ofPlugins (before ++ q :: p :: after) authorizers tokens).1.stage
        (∀ z, stage.handle.Runs x t r z → ∃ z', stage'.handle.Runs x t r z' ∧ z'.account = z.account ∧
          SameUpToOrder z z') ∧
        ∀ z, stage'.handle.Runs x t r z → ∃ z', stage.handle.Runs x t r z' ∧ z'.account = z.account ∧
          SameUpToOrder z z' := by
  refine ⟨⟨basicOutcome users x, fun t r y => runs_basic_iff, fun a => basicOutcome_eq_authenticated_iff named,
    basicOutcome_eq_notAttempted_iff, basicOutcome_eq_failed_iff named⟩, fun manager =>
    ⟨basic_or_bearer_passes x users manager, fun p q hp hq before after authorizers tokens t r => ?_⟩⟩
  have reordered := reordered_of_neighbours before after hp hq
  constructor
  · intro z ran
    obtain ⟨z', ran', same⟩ := reordered.runs_stage ran
    exact ⟨z', ran', same.account, same⟩
  · intro z ran
    obtain ⟨z', ran', same⟩ := reordered.symm.runs_stage ran
    exact ⟨z', ran', same.account, same⟩

/-- A password may have colons, the scheme may be in any case, and blanks may stand around the credentials. -/
theorem basic_decides_for_colons :
    let users : List UserEntry := [{ userid := "ada", password := "a:b", roles := ["dev"] }]
    let headers : Headers := ⟨[("authorization", Bytes.ofText "bAsIc  YWRhOmE6Yg== ")]⟩
    let x : Exchange := Exchange.ofRequest { headers } {}
    WellNamed users ∧ (basic users).authenticate.Runs x [] (.authenticated (.withRoles "ada" ["dev"])) x := by
  intro users headers x
  have named : WellNamed users := ⟨by decide, by decide⟩
  obtain ⟨⟨outcome, runs, granted, -, -⟩, -⟩ := basic_decides users named x
  have offered : Offers x "Basic" (basicCredentials "ada" "a:b") := by
    have visible : Bytes.isVisible (Bytes.ofText "bAsIc  YWRhOmE6Yg== ") = true := by decide +kernel
    have first : x.headers.firstText? "authorization" = some "bAsIc  YWRhOmE6Yg== " := by
      have value : x.headers.first? "authorization" = some (Bytes.ofText "bAsIc  YWRhOmE6Yg== ") := by
        simp [x, headers, Exchange.ofRequest, Headers.first?, Headers.values]
      rw [Headers.firstText?, value, Option.bind_some, Bytes.visibleText?, if_pos visible, Bytes.text?_ofText]
    have blank : IsBlankText " " := by
      change ∀ c ∈ [' '], isBlank c = true
      exact List.forall_mem_singleton.mpr rfl
    have credentials : basicCredentials "ada" "a:b" = "YWRhOmE6Yg==" := by decide +kernel
    refine ⟨_, " ", " ", first, ⟨"bAsIc", ?_, by decide⟩, blank, blank⟩
    rw [credentials]
    decide
  have same := (granted _).mpr ⟨_, List.mem_singleton_self _, rfl, offered⟩
  exact ⟨named, (runs _ _ _).mpr ⟨rfl, same.symm, rfl⟩⟩

end Mechanism
end Gateway
