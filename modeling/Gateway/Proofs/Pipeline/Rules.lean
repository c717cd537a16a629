import Gateway.Plugin.Service
import Gateway.Proofs.Job.Rules
import Gateway.Proofs.Pipeline.Course
import Gateway.Proofs.Pipeline.Ownership
import Gateway.Proxy.Stage
import Gateway.Site.Stage

/-! Rules that pipelines obey. The gateway's own stages edit exchanges and do nothing else to them, so a rule
that admits edits is obeyed by a whole pipeline as soon as what is plugged into it obeys the rule. -/
namespace Gateway
variable {R : Rule}

/-- A change that leaves what the response body holds gives nothing back. -/
lemma Exchange.releases_dropped_of_guards {x y : Exchange} (h : y.guards = x.guards) :
    Trace.releases (dropped x y) = [] := by
  have nothing : dropped x y = [] := by
    change y.response.body.guards = x.response.body.guards at h
    simp [dropped, h]
  rw [nothing]
  rfl

/-- An edit that leaves what the response body holds. -/
lemma Rule.Admits.quietly (hR : R.Admits) {x y : Exchange} (h : x.Edits y) (guards : y.guards = x.guards) :
    R x [] y := by
  rw [← Exchange.releases_dropped_of_guards guards]
  exact hR.edit h

/-- Traced headers are noted by one edit after another. -/
lemma Trace.obeys_traced (hR : R.Admits) (names : List String) (x : Exchange) : R x [] (traced names x) := by
  have noted (entries : List (String × Bytes)) (x : Exchange) : R x [] (entries.foldl addFound x) := by
    induction entries generalizing x with
    | nil => exact hR.nothing x
    | cons e rest ih =>
      have first : R x [] (addFound x e) :=
        hR.followed (hR.quietly (.traceValue x e.1 (valueText e.2)) rfl) (hR.quietly (.response _ _) rfl)
      exact hR.followed first (ih (addFound x e))
  unfold traced
  split
  · exact hR.nothing x
  · exact hR.followed (noted _ x) (hR.quietly (.traceText _ _) rfl)

namespace Handler.Obeys
variable {g : Headers → Headers}

lemma changeHeaders (hR : R.Admits) : Obeys R (Handler.changeHeaders g) := edit hR fun x => .headers x _

lemma changeResponse (hR : R.Admits) {f : Response → Response} : Obeys R (Handler.changeResponse f) :=
  edit hR fun x => .response x _

lemma changeResponseHeaders (hR : R.Admits) : Obeys R (Handler.changeResponseHeaders g) :=
  changeResponse hR

lemma readContent (hR : R.Admits) : Obeys R Handler.readContent := attempt fun x => hR.edit (.read x)

lemma rebuildQuery (hR : R.Admits) : Obeys R Handler.rebuildQuery := by
  refine attempt fun x => ?_
  split
  · next y h => exact hR.edit (.rebuilt h)
  · rw [Exchange.releases_dropped_of_guards rfl]
    exact hR.nothing x

lemma bufferResponse (hR : R.Admits) : Obeys R Handler.bufferResponse :=
  attempt fun x => hR.edit (.response x _)

lemma warn (hR : R.Admits) (text : String) : Obeys R (liftM (Job.warn text) : Handler Unit) :=
  job (Job.obeys_emit hR rfl)

lemma alarm (hR : R.Admits) (text : String) : Obeys R (liftM (Job.alarm text) : Handler Unit) :=
  job (Job.obeys_emit hR rfl)

end Handler.Obeys

/-- The stage obeys the rule, when it is called and also at the end. -/
structure Stage.Obeys (R : Rule) (s : Stage) : Prop where
  handle : s.handle.Obeys R
  complete : ExchangeJob.Obeys R s.complete

namespace Stage
open Handler

lemma Obeys.of_handle {name : String} {handle : Handler Flow} (hR : R.Composes)
    (h : Handler.Obeys R handle) : Obeys R { name, handle } := ⟨h, .pure hR ()⟩

/-- A stage that does its work and proceeds. -/
lemma Obeys.of_work {name : String} {work : Handler Unit} (hR : R.Composes) (h : Handler.Obeys R work) :
    Obeys R { name, handle := do work; pure .proceed } :=
  of_handle hR (.bind hR h fun _ => .pure hR _)

lemma obeys_routeInfo (hR : R.Composes) {info : RouteInfo}
    (attach : ∀ x : Exchange, R x [] { x with info := some info }) : (routeInfo info).Obeys R := by
  refine .of_handle hR fun x t r y run => ?_
  obtain ⟨rfl, -, rfl⟩ := runs_routeInfo_iff.mp run
  exact attach x

lemma obeys_trace (hR : R.Admits) (names : List String) : (Trace.stage names).Obeys R := by
  refine .of_work hR.toComposes (.exchange (.change fun x => ?_))
  rw [Exchange.releases_dropped_of_guards (Trace.guards_traced names x)]
  exact Trace.obeys_traced hR names x

lemma obeys_contentCloser (hR : R.Admits) : contentCloser.Obeys R where
  handle := .pure hR.toComposes _
  complete := .change fun x => hR.edit (.released x)

lemma obeys_poweredBy (hR : R.Admits) : poweredBy.Obeys R :=
  .of_work hR.toComposes (.changeResponseHeaders hR)

lemma obeys_contentReader (hR : R.Admits) (point : InterceptPoint) (r : InterceptorRegistry)
    (terminal : Bool) : (contentReader point r terminal).Obeys R := by
  refine .of_handle hR.toComposes (.bind hR.toComposes (.view hR.toComposes) fun x => ?_)
  split
  · exact .bind hR.toComposes (.readContent hR) fun _ => .pure hR.toComposes _
  · exact .pure hR.toComposes _

lemma obeys_queryRebuilder (hR : R.Admits) : queryRebuilder.Obeys R :=
  .of_work hR.toComposes (.rebuildQuery hR)

lemma obeys_runInterceptors (hR : R.Admits) {list : List Interceptor}
    (h : ∀ i ∈ list, i.handle.Obeys R) : (runInterceptors list).Obeys R := by
  have hC := hR.toComposes
  induction list with
  | nil => exact .pure hC _
  | cons i rest ih =>
    have others := ih fun j hj => h j (List.mem_cons_of_mem _ hj)
    refine .bind hC (.view hC) fun x => ?_
    split
    · refine .bind hC (.tryCatch hC (h i List.mem_cons_self) fun f => ?_) fun _ =>
        .bind hC (.view hC) fun y => ?_
      · exact .bind hC (.warn hR _) fun _ => .throw hC f
      · split
        · exact .pure hC _
        · exact others
    · exact others

lemma obeys_interceptors (hR : R.Admits) {point : InterceptPoint} {r : InterceptorRegistry}
    (h : ∀ i ∈ r.atPoint point, i.handle.Obeys R) : (interceptors point r).Obeys R := by
  refine .of_handle hR.toComposes (.bind hR.toComposes (.view hR.toComposes) fun x => ?_)
  split
  · exact .pure hR.toComposes _
  · exact obeys_runInterceptors hR h

lemma obeys_notManaged (hR : R.Composes) : notManaged.Obeys R :=
  .of_handle hR (.bind hR (.view hR) fun _ => .throw hR _)

lemma obeys_credentials (hR : R.Admits) : Forwarding.credentialsStage.Obeys R :=
  .of_work hR.toComposes (.changeHeaders hR)

lemma obeys_forwarding (hR : R.Admits) : Forwarding.stage.Obeys R :=
  .of_work hR.toComposes (.edit hR fun x => .headers x _)

/-- The request log writes, but not into the exchange. -/
lemma obeys_requestLog (hR : R.Composes) (level : Nat)
    (free : ∀ x (e : Effect) (r : e.Answer), R x [⟨e, r⟩] x) : (RequestLog.stage level).Obeys R := by
  have emits (event : Event) : ExchangeJob.Obeys R (liftM (Job.emit event)) := by
    refine .lift fun x t r run => ?_
    obtain rfl := Job.run_perform_iff.mp run
    exact free x (.emit event) ()
  refine ⟨.pure hR _, .bind hR (.get hR) fun x => .bind hR (emits _) fun _ => ?_⟩
  split
  · exact emits _
  · exact .pure hR ()

end Stage

namespace SecurityChain
variable {c : SecurityChain}

lemma obeys_challenge {α : Type} (hR : R.Admits) : (c.challenge : Handler α).Obeys R :=
  .bind hR.toComposes (.changeResponseHeaders hR) fun _ => .throw hR.toComposes _

lemma obeys_authenticate (hR : R.Admits) {list : List Mechanism}
    (h : ∀ m ∈ list, ExchangeJob.Obeys R m.authenticate) : (c.authenticate list).Obeys R := by
  induction list with
  | nil => exact .pure hR.toComposes _
  | cons m rest ih =>
    refine .bind hR.toComposes (.exchange (h m List.mem_cons_self)) fun outcome => ?_
    cases outcome with
    | notAttempted => exact ih fun m hm => h m (List.mem_cons_of_mem _ hm)
    | authenticated account => exact .edit hR fun x => .account x account
    | failed => exact obeys_challenge hR

lemma obeys_authorize (hR : R.Admits) : c.authorize.Obeys R := by
  refine .bind hR.toComposes (.view hR.toComposes) fun x => ?_
  split
  · split
    · exact obeys_challenge hR
    · exact .throw hR.toComposes _
  · exact .pure hR.toComposes _

lemma obeys_issueToken (hR : R.Admits)
    (tokens : ∀ manager, c.tokens = some manager → ∀ account, (manager.issue account).Obeys R) :
    c.issueToken.Obeys R := by
  refine .bind hR.toComposes (.view hR.toComposes) fun x => ?_
  split
  · next manager account some _ =>
    refine .bind hR.toComposes (.job (tokens manager some account)) fun outcome => ?_
    cases outcome with
    | ok token => exact .changeResponseHeaders hR
    | error reason => exact .warn hR _
  · exact .pure hR.toComposes _

/-- Mechanisms and the token manager obey the rule. -/
structure Obeys (R : Rule) (c : SecurityChain) : Prop where
  mechanisms : ∀ m ∈ c.mechanisms, ExchangeJob.Obeys R m.authenticate
  tokens : ∀ manager, c.tokens = some manager → ∀ account, (manager.issue account).Obeys R

lemma obeys_stage (hR : R.Admits) (h : c.Obeys R) : c.stage.Obeys R := by
  have hC := hR.toComposes
  exact .of_handle hC (.bind hC (obeys_authenticate hR h.mechanisms) fun _ =>
    .bind hC (obeys_authorize hR) fun _ => .bind hC (obeys_issueToken hR h.tokens) fun _ => .pure hC _)

end SecurityChain

namespace Mechanism

lemma obeys_basic (hR : R.Composes) (users : List UserEntry) :
    ExchangeJob.Obeys R (basic users).authenticate := by
  refine .bind hR (.get hR) fun x => ?_
  split <;> exact .pure hR _

lemma obeys_bearer (hR : R.Composes) {tokens : TokenManager}
    (verify : ∀ value, (tokens.verify value).Obeys R) :
    ExchangeJob.Obeys R (bearer tokens).authenticate := by
  refine .bind hR (.get hR) fun x => ?_
  split
  · refine .bind hR (.lift (verify _)) fun account => ?_
    split <;> exact .pure hR _
  · exact .pure hR _

end Mechanism

/-! The stages that answer requests. -/

lemma Service.obeys_stage (hR : R.Composes) {s : Service} (h : s.handle.Obeys R) : s.stage.Obeys R :=
  .of_work hR h

lemma Site.obeys_stage (hR : R.Admits) (s : Site) : s.stage.Obeys R := by
  refine .of_handle hR.toComposes (.bind hR.toComposes (.view hR.toComposes) fun x => ?_)
  split
  · exact .throw hR.toComposes _
  · exact .bind hR.toComposes (.changeResponse hR) fun _ => .pure hR.toComposes _

namespace Proxy

lemma obeys_giveBack (hR : R.Admits) (p : Proxy) (lease : Lease) : (p.giveBack lease).Obeys R :=
  .perform hR rfl

lemma obeys_forward (hR : R.Admits) (p : Proxy) (lease : Lease) (uri : Uri) :
    (p.forward lease uri).Obeys R := by
  have hC := hR.toComposes
  -- The body is taken out of the exchange that was seen.
  refine .view_bind fun x t r y run => ?_
  rcases Handler.runs_bind_iff.mp run with ⟨u, v, _, z, rfl, hu, hv⟩ | ⟨e, -, he⟩
  · obtain ⟨-, rfl, rfl⟩ := Handler.runs_change_iff.mp hu
    refine hR.followed (hR.edit (.taken x)) (Handler.Obeys.runs ?_ hv)
    refine .bind hC (.perform hR rfl) fun answer => ?_
    cases answer with
    | unreachable =>
      exact .bind hC (.alarm hR _) fun _ => .bind hC (.perform hR rfl) fun _ =>
        .bind hC (obeys_giveBack hR p lease) fun _ => .throw hC _
    | broken reason =>
      exact .bind hC (.alarm hR _) fun _ => .bind hC (obeys_giveBack hR p lease) fun _ => .throw hC _
    | answered status headers body =>
      exact .bind hC (.perform hR rfl) fun _ => .bind hC (.changeResponse hR) fun _ => .pure hC _
  · cases (Handler.runs_change_iff.mp he).1

lemma obeys_stage (hR : R.Admits) (p : Proxy) : p.stage.Obeys R := by
  have hC := hR.toComposes
  refine .of_handle hC (.bind hC (.perform hR rfl) fun answer => ?_)
  cases answer with
  | error f => exact .throw hC f
  | ok lease =>
    refine .bind hC (.view hC) fun x => ?_
    split
    · exact .bind hC (obeys_giveBack hR p lease) fun _ => .throw hC _
    · exact obeys_forward hR p lease _

end Proxy
end Gateway
