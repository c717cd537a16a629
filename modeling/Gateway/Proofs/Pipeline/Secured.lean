import Gateway.Pipeline.Assembly
import Gateway.Proofs.Pipeline.Stages
import Gateway.Proofs.Security.Chain

/-! The way through the pipeline of a secured route. What lasts from the start of the request is true
of the exchange that the security stage decides on. -/
namespace Gateway

/-- With the answers `t`, the run on `x` comes to the security stage of the chain, which decides on
`y` after authentication. -/
def Pipeline.Decides (p : Pipeline) (c : SecurityChain) (x : Exchange) (t : Trace) (y : Exchange) :
    Prop :=
  ∃ u v z, t = u ++ v ∧ p.Hands x u c.stage z ∧ (c.authenticate c.mechanisms).Runs z v (.ok ()) y

namespace Assembly
variable {a : Assembly} {info : RouteInfo} {p : Pipeline} {more : List Stage} {last : Stage}
  {P : Exchange → Prop} {x y z : Exchange} {t : Trace}

/-- The stages before the security stage, after the first. -/
def beforeSecurity (a : Assembly) : List Stage :=
  [a.trace, a.requestLog, Stage.contentCloser, Stage.poweredBy] ++ a.intercepted .beforeAuth false

lemma securedHead_eq : a.securedHead info =
    Stage.routeInfo info :: a.beforeSecurity ++ [a.security.stage] := rfl

lemma beforeSecurity_maintains (hP : Exchange.Lasting P)
    (interceptors : ∀ i ∈ a.interceptors.atPoint .beforeAuth, i.handle.Maintains P) :
    ∀ s ∈ a.beforeSecurity, s.handle.Maintains P := by
  simp only [beforeSecurity, intercepted, List.cons_append, List.nil_append, List.forall_mem_cons]
  exact ⟨hP.maintains (Trace.keeps_inbound _), .pure _, .pure _, hP.maintains Stage.poweredBy_keeps,
    hP.maintains (Stage.contentReader_keeps _ _ _), Stage.interceptors_maintains interceptors,
    Stage.queryRebuilder_maintains hP, nofun⟩

/-- The last stage of a secured route is reached only through the security stage, and that one only
through the stages before it. -/
theorem head_of_handsLast (stages : p.stages = a.securedHead info ++ more ++ [last])
    (h : p.HandsLast x t z) : ∃ u v w y y', t = u ++ v ++ w ∧ p.Hands x u a.security.stage y ∧
      Passes a.beforeSecurity { x with info := some info } u y ∧
      a.security.stage.handle.Runs y v (.ok .proceed) y' := by
  have way := (Pipeline.handsLast_iff stages).mp h
  rw [securedHead_eq] at way stages
  obtain ⟨_, w, y', rfl, head, -⟩ := Passes.append_iff.mp way
  obtain ⟨u, v, y, rfl, front, security⟩ := Passes.append_iff.mp head
  obtain ⟨u₁, u₂, x₁, rfl, attach, rest⟩ := Passes.cons_iff.mp front
  obtain ⟨rfl, -, rfl⟩ := Stage.runs_routeInfo_iff.mp attach
  exact ⟨u₂, v, w, y, y', rfl, ⟨_, more ++ [last], by rw [stages]; simp, front⟩, rest,
    Passes.singleton_iff.mp security⟩

/-- What lasts from the start is true of the exchange that is decided on. -/
theorem decides_of_handsLast (stages : p.stages = a.securedHead info ++ more ++ [last])
    (hP : Exchange.Lasting P)
    (interceptors : ∀ i ∈ a.interceptors.atPoint .beforeAuth, i.handle.Maintains P)
    (mechanisms : ∀ m ∈ a.security.mechanisms, m.authenticate.Maintains P)
    (start : P { x with info := some info }) (h : p.HandsLast x t z) :
    ∃ u v y, t = u ++ v ∧ p.Decides a.security x u y ∧ P y ∧
      (SecurityChain.isSecured y = true → a.security.isAllowed y = true) := by
  obtain ⟨u, v, w, y, y', rfl, hands, front, security⟩ := head_of_handsLast stages h
  obtain ⟨v₁, v₂, z₁, rfl, authenticated, allowed⟩ := SecurityChain.runs_stage_ok security
  have hy : P y := front.maintains (beforeSecurity_maintains hP interceptors) start
  have hz : P z₁ := SecurityChain.authenticate_maintains mechanisms
    (fun _ _ => hP.inbound rfl) (fun _ _ => hP.inbound rfl) hy authenticated
  exact ⟨u ++ v₁, v₂ ++ w, z₁, by simp only [List.append_assoc], ⟨u, v₁, y, rfl, hands, authenticated⟩,
    hz, allowed⟩

end Assembly
end Gateway
