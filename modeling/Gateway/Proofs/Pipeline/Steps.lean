import Gateway.Proofs.Pipeline.Blueprint
import Gateway.Proofs.Pipeline.Idle

/-! The steps that a request takes: stages, and between them the interceptors of the request one by one.
Nothing is begun on an exchange that is flagged as failed, and nothing takes the flag away. -/
namespace Gateway

/-- A step on the way of a request. -/
inductive Step where
  | stage (s : Stage)
  | interceptor (i : Interceptor)

namespace Step

/-- An interceptor is left out where it does not resolve. -/
def applies : Step → Exchange → Bool
  | stage _, _ => true
  | interceptor i, x => i.resolves x

/-- With the answers `t`, the step comes to an outcome. An interceptor that leaves the exchange flagged
stops the request although it succeeded, and one that fails is worth an alert. -/
def Takes : Step → Exchange → Trace → Except Failure Flow → Exchange → Prop
  | stage s, x, t, r, y => s.handle.Runs x t r y
  | interceptor i, x, t, .ok flow, y =>
    i.handle.Runs x t (.ok ()) y ∧ flow = if y.inError then .stop else .proceed
  | interceptor i, x, t, .error f, y =>
    ∃ u, t = u ++ [⟨.emit (.warning "Request interceptor failed"), ()⟩] ∧ i.handle.Runs x u (.error f) y

end Step

/-- A way along some steps up to the first that does not proceed. It notes the steps that were taken,
each with the exchange that it was taken on. -/
inductive Walk : List Step → Exchange → Trace → List (Step × Exchange) → Except Failure Flow →
    Exchange → Prop where
  | done (x : Exchange) : Walk [] x [] [] (.ok .proceed) x
  | skip {step : Step} {rest : List Step} {x y : Exchange} {t : Trace} {taken : List (Step × Exchange)}
      {r : Except Failure Flow} (applies : step.applies x = false) (tail : Walk rest x t taken r y) :
      Walk (step :: rest) x t taken r y
  | go {step : Step} {rest : List Step} {x y z : Exchange} {t u : Trace}
      {taken : List (Step × Exchange)} {r : Except Failure Flow} (applies : step.applies x = true)
      (head : step.Takes x t (.ok .proceed) y) (tail : Walk rest y u taken r z) :
      Walk (step :: rest) x (t ++ u) ((step, x) :: taken) r z
  | halt {step : Step} {rest : List Step} {x y : Exchange} {t : Trace} {r : Except Failure Flow}
      (applies : step.applies x = true) (head : step.Takes x t r y) (off : r ≠ .ok .proceed) :
      Walk (step :: rest) x t [(step, x)] r y

namespace Walk
variable {steps more : List Step} {x y z : Exchange} {t u : Trace} {taken others : List (Step × Exchange)}
  {r : Except Failure Flow} {s : Stage}

/-- Each step is taken at most once, and in order. -/
lemma sublist (h : Walk steps x t taken r y) : (taken.map (·.1)).Sublist steps := by
  induction h with
  | done => exact .slnil
  | skip _ _ ih => exact ih.cons _
  | go _ _ _ ih => exact ih.cons_cons _
  | halt => exact (List.nil_sublist _).cons_cons _

lemma append (h : Walk steps x t taken (.ok .proceed) y) (g : Walk more y u others r z) :
    Walk (steps ++ more) x (t ++ u) (taken ++ others) r z := by
  generalize on : Except.ok (ε := Failure) Flow.proceed = o at h
  induction h with
  | done => exact g
  | skip applies _ ih => exact .skip applies (ih g on)
  | go applies head _ ih =>
    rw [List.append_assoc]
    exact .go applies head (ih g on)
  | halt _ _ off => exact absurd on.symm off

/-- What would follow a way that was left is not reached. -/
lemma append_left (h : Walk steps x t taken r y) (off : r ≠ .ok .proceed) :
    Walk (steps ++ more) x t taken r y := by
  induction h with
  | done => exact absurd rfl off
  | skip applies _ ih => exact .skip applies (ih off)
  | go applies head _ ih => exact .go applies head (ih off)
  | halt applies head off => exact .halt applies head off

end Walk

namespace Stage
variable {list : List Interceptor} {i : Interceptor} {x y z : Exchange} {t : Trace}
  {r : Except Failure Flow}

/-- A stage that proceeds with an exchange that is not flagged leaves it so. -/
def Clear (s : Stage) : Prop :=
  ∀ ⦃x t y⦄, s.handle.Runs x t (.ok .proceed) y → x.inError = false → y.inError = false

lemma Obeys.clear {s : Stage} (h : s.Obeys (.keeping (·.inError))) : s.Clear :=
  fun _ _ _ run start => (h.handle.runs run).trans start

end Stage

/-- The steps of a part. -/
def Part.steps (r : InterceptorRegistry) : Part → List Step
  | single s => [.stage s]
  | interceptors point => (r.atPoint point).map .interceptor

/-- Some parts lead `x` to one that takes the step on the exchange. -/
def Part.LeadTo (r : InterceptorRegistry) (parts : List Part) (x : Exchange) (e : Step × Exchange) : Prop :=
  ∃ before part after t u y taken o z, parts = before ++ part :: after ∧
    Passes (before.map (Part.stage r)) x t y ∧ Walk (part.steps r) y u taken o z ∧ e ∈ taken

namespace Part.LeadTo
variable {r : InterceptorRegistry} {part : Part} {parts : List Part} {x y z : Exchange} {t : Trace}
  {e : Step × Exchange} {taken : List (Step × Exchange)} {o : Except Failure Flow}

lemma here (way : Walk (part.steps r) x t taken o y) (mem : e ∈ taken) : LeadTo r (part :: parts) x e :=
  ⟨[], part, parts, [], t, x, taken, o, y, rfl, .nil x, way, mem⟩

lemma cons (h : LeadTo r parts y e) (head : (part.stage r).handle.Runs x t (.ok .proceed) y) :
    LeadTo r (part :: parts) x e := by
  obtain ⟨before, p, after, u, v, m, taken, o, z, rfl, way, rest⟩ := h
  exact ⟨part :: before, p, after, t ++ u, v, m, taken, o, z, rfl, .cons head way, rest⟩

end Part.LeadTo

/-- What becomes of an exchange at the end of its way: a failure becomes the response. -/
def Settles : Except Failure Flow → Exchange → Trace → Exchange → Prop
  | .ok _, y, t, z => t = [] ∧ z = y
  | .error f, y, t, z => t = Trace.releases (Exchange.dropped y z) ∧ y.Fails f z

namespace Pipeline
variable {r : InterceptorRegistry} {parts : List Part} {last : Part} {done handled : List Stage}
  {x y z : Exchange} {t : Trace}

end Pipeline

namespace Blueprint

/-- The steps that a request takes on its way through the pipeline. -/
def steps (a : Assembly) (b : Blueprint) : List Step := (b.parts a).flatMap (Part.steps a.interceptors)

end Blueprint

namespace Assembly
variable {a : Assembly} {b : Blueprint} {s : Stage} {x y : Exchange} {t : Trace}

end Assembly
end Gateway
