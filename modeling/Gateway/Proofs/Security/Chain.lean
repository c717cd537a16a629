import Gateway.Proofs.Job.Handler
import Gateway.Security.Chain

/-! The decision of the security stage. It proceeds with a secured exchange only if the exchange, as
authentication left it, is allowed. -/
namespace Gateway.SecurityChain
variable {mechanisms : List (Plugin Mechanism)} {authorizers : List (Plugin Authorizer)}
  {tokens : Option (Plugin TokenManager)} {c : SecurityChain} {x y : Exchange} {t : Trace}
  {P : Exchange → Prop}

lemma mem_enabled_iff {α : Type} {plugins : List (Plugin α)} {b : α} :
    b ∈ enabled plugins ↔ ∃ p ∈ plugins, p.enabled = true ∧ p.behaviour = b := by
  simp only [enabled, List.mem_map, List.mem_filter, and_assoc]

/-- An enabled allower grants the exchange. -/
def SomeGrants (authorizers : List (Plugin Authorizer)) (x : Exchange) : Prop :=
  ∃ p ∈ authorizers, p.enabled = true ∧ p.behaviour.kind = .allower ∧
    p.behaviour.isAllowed x = true

/-- No enabled vetoer forbids the exchange. -/
def NoneForbids (authorizers : List (Plugin Authorizer)) (x : Exchange) : Prop :=
  ∀ p ∈ authorizers, p.enabled = true → p.behaviour.kind = .vetoer →
    p.behaviour.isAllowed x = true

theorem isAllowed_ofPlugins_iff :
    (ofPlugins mechanisms authorizers tokens).1.isAllowed x = true ↔
      SomeGrants authorizers x ∧ NoneForbids authorizers x := by
  simp only [isAllowed, ofPlugins, Bool.and_eq_true, List.any_eq_true, List.all_eq_true,
    List.mem_filter, mem_enabled_iff, decide_eq_true_eq]
  refine and_congr ?_ ?_
  · constructor
    · rintro ⟨_, ⟨⟨p, hp, on, rfl⟩, kind⟩, grants⟩
      exact ⟨p, hp, on, kind, grants⟩
    · rintro ⟨p, hp, on, kind, grants⟩
      exact ⟨p.behaviour, ⟨⟨p, hp, on, rfl⟩, kind⟩, grants⟩
  · constructor
    · intro h p hp on kind
      exact h p.behaviour ⟨⟨p, hp, on, rfl⟩, kind⟩
    · rintro h _ ⟨⟨p, hp, on, rfl⟩, kind⟩
      exact h p hp on kind

/-- What all mechanisms maintain holds after authentication, if it depends neither on the account nor
on the response. -/
lemma authenticate_maintains {list : List Mechanism} (h : ∀ m ∈ list, m.authenticate.Maintains P)
    (account : ∀ x a, P x → P { x with account := a })
    (response : ∀ x r, P x → P { x with response := r }) : (c.authenticate list).Maintains P := by
  induction list with
  | nil => exact .pure ()
  | cons m rest ih =>
    refine .bind (.exchange (h m List.mem_cons_self)) fun outcome => ?_
    cases outcome with
    | notAttempted => exact ih fun n hn => h n (List.mem_cons_of_mem _ hn)
    | authenticated a => exact .change fun x => account x _
    | failed => exact .bind (.change fun x => response x _) fun _ => .throw _

lemma runs_challenge_ok {α : Type} {a : α} : ¬Handler.Runs c.challenge x t (.ok a) y := by
  intro h
  obtain ⟨u, v, _, z, -, -, hv⟩ := Handler.runs_bind_ok h
  cases (Handler.runs_throw_iff.mp hv).2.1

lemma runs_authorize_ok {u : Unit} (h : c.authorize.Runs x t (.ok u) y) :
    t = [] ∧ y = x ∧ (isSecured x = true → c.isAllowed x = true) := by
  have ran := Handler.runs_view_bind_iff.mp h
  split at ran
  · split at ran
    · exact absurd ran runs_challenge_ok
    · cases (Handler.runs_throw_iff.mp ran).2.1
  · next denied =>
    obtain ⟨rfl, -, rfl⟩ := Handler.runs_pure_iff.mp ran
    refine ⟨rfl, rfl, fun secured => ?_⟩
    simpa [secured] using denied

/-- The stage proceeds after a decision on the exchange that authentication left. -/
theorem runs_stage_ok {flow : Flow} (h : c.stage.handle.Runs x t (.ok flow) y) :
    ∃ u v z, t = u ++ v ∧ (c.authenticate c.mechanisms).Runs x u (.ok ()) z ∧
      (isSecured z = true → c.isAllowed z = true) := by
  obtain ⟨u, v, _, z, rfl, hu, hv⟩ := Handler.runs_bind_ok h
  obtain ⟨v, w, _, m, rfl, hv, -⟩ := Handler.runs_bind_ok hv
  obtain ⟨-, -, allowed⟩ := runs_authorize_ok hv
  exact ⟨u, v ++ w, z, rfl, hu, allowed⟩

/-- The security stage changes the account and the response, and what its mechanisms change. -/
lemma stage_maintains (mechanisms : ∀ m ∈ c.mechanisms, m.authenticate.Maintains P)
    (account : ∀ x a, P x → P { x with account := a })
    (response : ∀ x r, P x → P { x with response := r }) : c.stage.handle.Maintains P := by
  have challenge : Handler.Maintains P (c.challenge : Handler Unit) :=
    .bind (.change fun x => response x _) fun _ => .throw _
  refine .bind (authenticate_maintains mechanisms account response) fun _ => .bind ?_ fun _ =>
    .bind ?_ fun _ => .pure _
  · refine .bind .view fun x => ?_
    split
    · split
      · exact challenge
      · exact .throw _
    · exact .pure _
  · refine .bind .view fun x => ?_
    split
    · refine .bind (.job _) fun r => ?_
      split
      · exact .change fun x => response x _
      · exact .job _
    · exact .pure _

end Gateway.SecurityChain

namespace Gateway.Mechanism
variable {P : Exchange → Prop}

lemma basic_maintains (users : List UserEntry) : (basic users).authenticate.Maintains P := by
  refine .bind .get fun x => ?_
  split
  · exact .pure _
  · exact .pure _

lemma bearer_maintains (tokens : TokenManager) : (bearer tokens).authenticate.Maintains P := by
  refine .bind .get fun x => ?_
  split
  · refine .bind (.lift _) fun account => ?_
    split
    · exact .pure _
    · exact .pure _
  · exact .pure _

end Gateway.Mechanism
