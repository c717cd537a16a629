import Gateway.Pipeline.Stages
import Gateway.Pipeline.Trace
import Gateway.Proofs.Pipeline.Passage

/-! What the stages around a route leave as it is. The gateway's own stages do not touch the request
line; interceptors are held to what they keep. -/
namespace Gateway

namespace Exchange
variable {x y : Exchange}

/-- The exchange without its content, its trace, its account and its response. -/
def inbound (x : Exchange) : Exchange :=
  { x with content := .released, traceValues := [], traceText := none, account := none, response := {} }

lemma rebuildQuery_eq (h : x.rebuildQuery = .ok y) : y = { x with uri := y.uri } := by
  unfold rebuildQuery at h
  dsimp only at h
  split at h
  · obtain rfl := Except.ok.inj h
    rfl
  · split at h
    · cases h
    · split at h
      · cases h
      · obtain rfl := Except.ok.inj h
        rfl

lemma readContent_eq (x : Exchange) : ∃ c, x.readContent.1 = { x with content := c } := by
  unfold readContent
  split
  · split
    · exact ⟨_, rfl⟩
    · exact ⟨_, rfl⟩
  · exact ⟨_, rfl⟩

lemma inbound_readContent (x : Exchange) : x.readContent.1.inbound = x.inbound := by
  obtain ⟨c, read⟩ := x.readContent_eq
  rw [read]
  rfl

/-- The property says nothing about what the gateway's own stages change. -/
structure Lasting (P : Exchange → Prop) : Prop where
  inbound : ∀ ⦃x y⦄, y.inbound = x.inbound → P x → P y
  rebuild : ∀ ⦃x y⦄, x.rebuildQuery = .ok y → P x → P y

lemma Lasting.maintains {α : Type} {P : Exchange → Prop} {h : Handler α} (hP : Lasting P)
    (hk : h.Keeps Exchange.inbound) : h.Maintains P := by
  intro x t r y hx hr
  exact hP.inbound (hk _ rfl hr) hx

lemma lasting_info (Q : Option RouteInfo → Prop) : Lasting fun x => Q x.info where
  inbound x y h hx := by
    have same := congrArg Exchange.info h
    change y.info = x.info at same
    rwa [same]
  rebuild _ _ h hx := by rwa [rebuildQuery_eq h]

end Exchange

namespace Trace

/-- What is traced goes into the trace and onto the response. -/
lemma traced_eq (names : List String) (x : Exchange) : ∃ values text headers, traced names x =
    { x with
      traceValues := values
      traceText := text
      response := { x.response with headers := headers } } := by
  have noted (entries : List (String × Bytes)) (x : Exchange) : ∃ values headers,
      entries.foldl addFound x =
        { x with traceValues := values, response := { x.response with headers := headers } } := by
    induction entries generalizing x with
    | nil => exact ⟨_, _, rfl⟩
    | cons e rest ih => exact ih (addFound x e)
  unfold traced
  split
  · exact ⟨_, _, _, rfl⟩
  · obtain ⟨values, headers, e⟩ := noted _ x
    exact ⟨values, _, headers, by rw [e]⟩

lemma inbound_traced (names : List String) (x : Exchange) :
    (traced names x).inbound = x.inbound := by
  obtain ⟨values, text, headers, e⟩ := traced_eq names x
  rw [e]
  rfl

lemma keeps_inbound (names : List String) : (stage names).handle.Keeps Exchange.inbound :=
  fun _ => .bind (.change fun x h => (inbound_traced names x).trans h) fun _ => .pure _

end Trace

namespace Stage
variable {P : Exchange → Prop} {x y : Exchange} {t : Trace}

lemma runs_routeInfo_iff {info : RouteInfo} {r : Except Failure Flow} :
    (routeInfo info).handle.Runs x t r y ↔
      t = [] ∧ r = .ok .proceed ∧ y = { x with info := some info } := by
  have nothing : Trace.releases (Exchange.dropped x { x with info := some info }) = [] :=
    congrArg Trace.releases (Exchange.dropped_eq_nil rfl)
  constructor
  · intro h
    rcases Handler.runs_bind_iff.mp h with ⟨u, v, a, z, rfl, hu, hv⟩ | ⟨e, -, he⟩
    · obtain ⟨-, rfl, rfl⟩ := Handler.runs_change_iff.mp hu
      obtain ⟨rfl, rfl, rfl⟩ := Handler.runs_pure_iff.mp hv
      exact ⟨by rw [nothing, List.append_nil], rfl, rfl⟩
    · cases (Handler.runs_change_iff.mp he).1
  · rintro ⟨rfl, rfl, rfl⟩
    exact Handler.runs_bind_iff.mpr (.inl ⟨[], [], (), _, rfl,
      Handler.runs_change_iff.mpr ⟨rfl, nothing.symm, rfl⟩, Handler.runs_pure_iff.mpr ⟨rfl, rfl, rfl⟩⟩)

lemma runs_queryRebuilder_ok {flow : Flow} (h : queryRebuilder.handle.Runs x t (.ok flow) y) :
    x.rebuildQuery = .ok y := by
  obtain ⟨u, v, _, z, rfl, hu, hv⟩ := Handler.runs_bind_ok h
  obtain ⟨-, -, rfl⟩ := Handler.runs_pure_iff.mp hv
  obtain ⟨hr, -, rfl⟩ := Handler.runs_attempt_iff.mp hu
  split at hr
  · next hx => exact hx
  · cases hr

/-- The query is rebuilt, or the stage fails and leaves the exchange. -/
lemma queryRebuilder_maintains (hP : Exchange.Lasting P) : queryRebuilder.handle.Maintains P := by
  refine .bind (.attempt fun x hx => ?_) fun _ => .pure _
  split
  · next h => exact hP.rebuild h hx
  · exact hx

lemma poweredBy_keeps : poweredBy.handle.Keeps Exchange.inbound :=
  fun _ => .bind (.change fun _ h => h) fun _ => .pure _

lemma contentReader_keeps (point : InterceptPoint) (r : InterceptorRegistry) (terminal : Bool) :
    (contentReader point r terminal).handle.Keeps Exchange.inbound := by
  intro c
  refine .bind .view fun _ => ?_
  split
  · exact .bind (.attempt fun x h => (x.inbound_readContent).trans h) fun _ => .pure _
  · exact .pure _

theorem runInterceptors_maintains {list : List Interceptor}
    (h : ∀ i ∈ list, i.handle.Maintains P) : (runInterceptors list).Maintains P := by
  induction list with
  | nil => exact .pure _
  | cons i rest ih =>
    have hrest := ih fun j hj => h j (List.mem_cons_of_mem _ hj)
    refine .bind .view fun x => ?_
    split
    · refine .bind (.tryCatch (h i List.mem_cons_self) fun e => ?_) fun _ => .bind .view fun y => ?_
      · exact .bind (.job _) fun _ => .throw e
      · split
        · exact .pure _
        · exact hrest
    · exact hrest

lemma interceptors_maintains {point : InterceptPoint} {r : InterceptorRegistry}
    (h : ∀ i ∈ r.atPoint point, i.handle.Maintains P) :
    (interceptors point r).handle.Maintains P := by
  refine .bind .view fun x => ?_
  split
  · exact .pure _
  · exact runInterceptors_maintains h

end Stage
end Gateway
