import Gateway.Pipeline.Basic
import Gateway.Proofs.Job.Handler

/-! How an exchange comes through the stages of a pipeline. A stage is handed the exchange only when
all stages before it have proceeded, and the stages that ran are those that were handed it. -/
namespace Gateway

/-- With the answers `t`, some stages proceed one after the other and turn `x` into `y`. -/
inductive Passes : List Stage → Exchange → Trace → Exchange → Prop where
  | nil (x : Exchange) : Passes [] x [] x
  | cons {s : Stage} {rest : List Stage} {x y z : Exchange} {t u : Trace}
      (head : s.handle.Runs x t (.ok .proceed) y) (tail : Passes rest y u z) :
      Passes (s :: rest) x (t ++ u) z

/-- A stage that proceeds hands the property on. -/
def Stage.Carries (P : Exchange → Prop) (s : Stage) : Prop :=
  ∀ ⦃x t y⦄, s.handle.Runs x t (.ok .proceed) y → P x → P y

lemma Stage.carries_of_maintains {P : Exchange → Prop} {s : Stage} (h : s.handle.Maintains P) :
    s.Carries P :=
  fun _ _ _ run start => h start run

/-- A stage that makes one change hands on what the change leaves. -/
lemma Stage.carries_change {P : Exchange → Prop} {name : String} {f : Exchange → Exchange}
    (h : ∀ x, P x → P (f x)) :
    Carries P { name, handle := do Handler.change f; pure .proceed } :=
  carries_of_maintains (.bind (.change h) fun _ => .pure _)

/-- A stage that only has something to do at the end hands everything on. -/
lemma Stage.carries_proceed {P : Exchange → Prop} {name : String} {complete : ExchangeJob Unit} :
    Carries P { name, handle := pure .proceed, complete } :=
  carries_of_maintains (.pure _)

namespace Passes
variable {stages rest more : List Stage} {s : Stage} {x y z : Exchange} {t u : Trace}

lemma nil_iff : Passes [] x t y ↔ t = [] ∧ y = x := by
  constructor
  · intro h
    cases h
    exact ⟨rfl, rfl⟩
  · rintro ⟨rfl, rfl⟩
    exact .nil _

lemma cons_iff : Passes (s :: rest) x t z ↔
    ∃ u v y, t = u ++ v ∧ s.handle.Runs x u (.ok .proceed) y ∧ Passes rest y v z := by
  constructor
  · intro h
    cases h with
    | cons head tail => exact ⟨_, _, _, rfl, head, tail⟩
  · rintro ⟨u, v, y, rfl, head, tail⟩
    exact .cons head tail

/-- A stage that proceeds without asking for anything leaves the rest to come through. -/
lemma exists_cons {P : Exchange → Prop} (head : s.handle.Runs x [] (.ok .proceed) y)
    (tail : ∃ z, Passes rest y t z ∧ P z) : ∃ z, Passes (s :: rest) x t z ∧ P z := by
  obtain ⟨z, way, hz⟩ := tail
  exact ⟨z, .cons head way, hz⟩

theorem append_iff : Passes (stages ++ more) x t z ↔
    ∃ u v y, t = u ++ v ∧ Passes stages x u y ∧ Passes more y v z := by
  induction stages generalizing x t with
  | nil =>
    constructor
    · intro h
      exact ⟨[], t, x, rfl, .nil x, h⟩
    · rintro ⟨u, v, y, rfl, h, g⟩
      obtain ⟨rfl, rfl⟩ := nil_iff.mp h
      exact g
  | cons s rest ih =>
    rw [List.cons_append, cons_iff]
    constructor
    · rintro ⟨u, v, y, rfl, head, h⟩
      obtain ⟨v, w, m, rfl, tail, g⟩ := ih.mp h
      exact ⟨u ++ v, w, m, (List.append_assoc ..).symm, .cons head tail, g⟩
    · rintro ⟨u, w, m, rfl, h, g⟩
      obtain ⟨u, v, y, rfl, head, tail⟩ := cons_iff.mp h
      exact ⟨u, v ++ w, y, List.append_assoc .., head, ih.mpr ⟨v, w, m, rfl, tail, g⟩⟩

lemma singleton_iff : Passes [s] x t y ↔ s.handle.Runs x t (.ok .proceed) y := by
  rw [cons_iff]
  constructor
  · rintro ⟨u, v, z, rfl, head, tail⟩
    obtain ⟨rfl, rfl⟩ := nil_iff.mp tail
    rwa [List.append_nil]
  · intro h
    exact ⟨t, [], y, (List.append_nil t).symm, h, .nil y⟩

theorem carries {P : Exchange → Prop} (h : Passes stages x t y) (hs : ∀ s ∈ stages, s.Carries P)
    (hx : P x) : P y := by
  induction h with
  | nil x => exact hx
  | cons head tail ih =>
    have hy := hs _ List.mem_cons_self head hx
    exact ih (fun s hr => hs s (List.mem_cons_of_mem _ hr)) hy

theorem maintains {P : Exchange → Prop} (h : Passes stages x t y)
    (hs : ∀ s ∈ stages, s.handle.Maintains P) (hx : P x) : P y :=
  h.carries (fun s hm => Stage.carries_of_maintains (hs s hm)) hx

/-- On the way through stages that maintain a property, each of them proceeds from an exchange with
the property. -/
theorem proceeds_of_mem {P : Exchange → Prop} (h : Passes stages x t y)
    (hs : ∀ s ∈ stages, s.handle.Maintains P) (hx : P x) (hm : s ∈ stages) :
    ∃ z u w, P z ∧ s.handle.Runs z u (.ok .proceed) w := by
  obtain ⟨before, after, rfl⟩ := List.append_of_mem hm
  obtain ⟨u, v, z, -, front, rest⟩ := append_iff.mp h
  obtain ⟨v₁, v₂, w, -, head, -⟩ := cons_iff.mp rest
  exact ⟨z, v₁, w, front.maintains (fun s hf => hs s (List.mem_append_left _ hf)) hx, head⟩

end Passes

namespace Pipeline

/-- With the answers `t`, a run of the pipeline on `x` hands the exchange `y` to the stage `s`. -/
def Hands (p : Pipeline) (x : Exchange) (t : Trace) (s : Stage) (y : Exchange) : Prop :=
  ∃ before after, p.stages = before ++ s :: after ∧ Passes before x t y

/-- The run has come to the last stage, the one that answers requests. -/
def HandsLast (p : Pipeline) (x : Exchange) (t : Trace) (y : Exchange) : Prop :=
  ∃ before last, p.stages = before ++ [last] ∧ Passes before x t y

variable {p : Pipeline} {stages before after done handled : List Stage} {s : Stage}
  {x y z : Exchange} {t : Trace}

lemma handsLast_iff {last : Stage} (e : p.stages = before ++ [last]) :
    p.HandsLast x t y ↔ Passes before x t y := by
  constructor
  · rintro ⟨b, l, e', h⟩
    obtain ⟨rfl, -⟩ := List.append_inj' (e.symm.trans e') rfl
    exact h
  · intro h
    exact ⟨before, last, e, h⟩

lemma runStages_cons (done : List Stage) (s : Stage) (rest : List Stage) (x : Exchange) :
    runStages done (s :: rest) x = s.handle.run x >>= fun p => match p.1 with
      | .ok .proceed => runStages (s :: done) rest p.2
      | .ok .stop => pure (s :: done, p.2)
      | .error f => (Exchange.change (·.fail f)).run p.2 >>= fun q => pure (s :: done, q.2) := by
  rfl

/-- A passage leads the run of the stages to those that follow. -/
theorem leads_of_passes (h : Passes stages x t y) (done after : List Stage) :
    Job.Leads (runStages done (stages ++ after) x) t
      (runStages (stages.reverse ++ done) after y) := by
  induction h generalizing done with
  | nil x => exact .refl _
  | @cons s rest x y z t u head tail ih =>
    rw [List.cons_append, runStages_cons, List.reverse_cons, List.append_assoc]
    exact (head.leads_bind _).trans (ih (s :: done))

/-- How a run of stages ends: all proceeded, or one of them stopped or failed. -/
inductive Ends : List Stage → Exchange → Trace → List Stage → Exchange → Prop where
  | all {stages : List Stage} {x y : Exchange} {t : Trace} (h : Passes stages x t y) :
      Ends stages x t stages y
  | stopped {before after : List Stage} {s : Stage} {x y z : Exchange} {t u : Trace}
      (h : Passes before x t y) (stop : s.handle.Runs y u (.ok .stop) z) :
      Ends (before ++ s :: after) x (t ++ u) (before ++ [s]) z
  | failed {before after : List Stage} {s : Stage} {x y z : Exchange} {t u : Trace} {f : Failure}
      (h : Passes before x t y) (fail : s.handle.Runs y u (.error f) z) :
      Ends (before ++ s :: after) x
        (t ++ u ++ Trace.releases (Exchange.dropped z (z.fail f))) (before ++ [s]) (z.fail f)

lemma Ends.cons {u : Trace} {ran : List Stage} (head : s.handle.Runs x t (.ok .proceed) y)
    (h : Ends stages y u ran z) : Ends (s :: stages) x (t ++ u) (s :: ran) z := by
  cases h with
  | all h => exact .all (.cons head h)
  | stopped h stop =>
    rw [← List.append_assoc]
    exact .stopped (.cons head h) stop
  | failed h fail =>
    rw [← List.append_assoc, ← List.append_assoc]
    exact .failed (.cons head h) fail

/-- Every run of stages ends in one of these ways, with the stages that ran last first. -/
theorem ends_of_run (h : Job.Run (runStages done stages x) t (handled, y)) :
    ∃ ran, handled = ran.reverse ++ done ∧ Ends stages x t ran y := by
  induction stages generalizing x t done with
  | nil =>
    obtain ⟨rfl, e⟩ := Job.run_done_iff.mp h
    obtain ⟨rfl, rfl⟩ := Prod.mk.inj e
    exact ⟨[], rfl, .all (.nil y)⟩
  | cons s rest ih =>
    rw [runStages_cons, Job.run_bind_iff] at h
    obtain ⟨u, v, ⟨r, z⟩, rfl, head, tail⟩ := h
    match r with
    | .ok .proceed =>
      obtain ⟨ran, rfl, hran⟩ := ih tail
      refine ⟨s :: ran, ?_, hran.cons head⟩
      rw [List.reverse_cons, List.append_assoc]
      rfl
    | .ok .stop =>
      obtain ⟨rfl, e⟩ := Job.run_done_iff.mp tail
      obtain ⟨rfl, rfl⟩ := Prod.mk.inj e
      rw [List.append_nil]
      exact ⟨[s], rfl, Ends.stopped (Passes.nil x) head⟩
    | .error f =>
      obtain ⟨v, w, ⟨_, m⟩, rfl, hv, hw⟩ := Job.run_bind_iff.mp tail
      obtain ⟨rfl, e⟩ := Job.run_done_iff.mp hw
      obtain ⟨rfl, rfl⟩ := Prod.mk.inj e
      obtain ⟨rfl, rfl⟩ := ExchangeJob.runs_change_iff.mp hv
      rw [List.append_nil]
      exact ⟨[s], rfl, Ends.failed (Passes.nil x) head⟩

lemma Ends.isPrefix {ran : List Stage} (h : Ends stages x t ran y) : ran <+: stages := by
  have front (before : List Stage) (s : Stage) (after : List Stage) :
      before ++ [s] <+: before ++ s :: after := by
    rw [← List.singleton_append (l := after), ← List.append_assoc]
    exact List.prefix_append ..
  cases h with
  | all h => exact List.prefix_rfl
  | stopped h stop => exact front ..
  | failed h fail => exact front ..

/-- A stage that ran was handed the exchange by those before it. -/
lemma Ends.passes {ran : List Stage} (h : Ends stages x t ran y) (e : ran = before ++ [s]) :
    ∃ u z, u <+: t ∧ Passes before x u z := by
  cases h with
  | all h =>
    rw [e] at h
    obtain ⟨u, v, z, rfl, front, -⟩ := Passes.append_iff.mp h
    exact ⟨u, z, List.prefix_append .., front⟩
  | stopped h stop =>
    obtain ⟨rfl, -⟩ := List.append_inj' e rfl
    exact ⟨_, _, List.prefix_append .., h⟩
  | failed h fail =>
    obtain ⟨rfl, -⟩ := List.append_inj' e rfl
    rw [List.append_assoc]
    exact ⟨_, _, List.prefix_append .., h⟩

lemma Ends.ne_nil {ran : List Stage} (h : Ends stages x t ran y) (some : stages ≠ []) : ran ≠ [] := by
  cases h with
  | all h => exact some
  | stopped h stop => exact List.append_ne_nil_of_right_ne_nil _ (List.cons_ne_nil _ _)
  | failed h fail => exact List.append_ne_nil_of_right_ne_nil _ (List.cons_ne_nil _ _)

/-- The last stage is handed an exchange exactly if some run has all stages among those that ran. -/
theorem exists_handsLast_iff (e : p.stages = before ++ [s]) :
    (∃ t y, p.HandsLast x t y) ↔ ∃ t y, Job.Run (runStages [] p.stages x) t (p.stages.reverse, y) := by
  simp only [handsLast_iff e]
  constructor
  · rintro ⟨t, y, h⟩
    obtain ⟨u, ⟨handled, z⟩, rest⟩ := (runStages (before.reverse ++ []) [s] y).exists_run
    obtain ⟨ran, rfl, ends⟩ := ends_of_run rest
    have last : ran = [s] := by
      have one := List.length_pos_iff.mpr (ends.ne_nil (List.cons_ne_nil s []))
      exact ends.isPrefix.eq_of_length_le one
    rw [last] at rest
    have run := (leads_of_passes h [] [s]).run rest
    rw [e, List.reverse_append]
    rw [List.append_nil] at run
    exact ⟨_, z, run⟩
  · rintro ⟨t, y, h⟩
    obtain ⟨ran, all, ends⟩ := ends_of_run h
    rw [List.append_nil, List.reverse_inj] at all
    obtain ⟨u, z, -, front⟩ := ends.passes (all.symm.trans e)
    exact ⟨u, z, front⟩

end Pipeline
end Gateway
