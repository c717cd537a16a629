import Mathlib.Logic.Relation
import Gateway.Pipeline.Assembly
import Gateway.Proofs.Server.Admission

/-! What a server offers, made of single moves, so that what holds after all moves holds of it. -/
namespace Gateway.Server

/-- One server comes out of the other by moves. -/
def Leads (s t : Server) : Prop := ∃ moves, t = s.follow moves

variable {places : Nat} {closed : Bool} {s t u : Server} {v w : Visit} {id : Nat} {env : Surroundings}
  {rest : Job Reply}

namespace Leads

lemma refl (s : Server) : Leads s s := ⟨[], rfl⟩

lemma trans (h : Leads s t) (g : Leads t u) : Leads s u := by
  obtain ⟨first, rfl⟩ := h
  obtain ⟨second, rfl⟩ := g
  exact ⟨first ++ second, List.foldl_append.symm⟩

lemma move (s : Server) (m : Move) : Leads s (s.step m) := ⟨[m], rfl⟩

lemma share (s : Server) (resources : Resources) : Leads s { s with resources } :=
  move s (.share resources)

end Leads

lemma Orderly.leads (h : Orderly places closed s) (leads : Leads s t) : ∃ closed, Orderly places closed t := by
  obtain ⟨moves, rfl⟩ := leads
  exact ⟨_, h.follow moves⟩

/-- On a server in order the operation comes to some moves. -/
structure IsMoves (f : Server → Server) : Prop where
  leads : ∀ {places : Nat} {closed : Bool} {s : Server}, Orderly places closed s → Leads s (f s)

namespace IsMoves
variable {f g : Server → Server}

lemma comp (hg : IsMoves g) (hf : IsMoves f) : IsMoves fun s => g (f s) where
  leads h := by
    have first := hf.leads h
    obtain ⟨_, h⟩ := h.leads first
    exact first.trans (hg.leads h)

lemma idle : IsMoves fun s => s := ⟨fun {_ _ s} _ => .refl s⟩

lemma move (m : Move) : IsMoves (·.step m) := ⟨fun {_ _ s} _ => .move s m⟩

lemma share (f : Server → Resources) : IsMoves fun s => { s with resources := f s } :=
  ⟨fun {_ _ s} _ => .share s (f s)⟩

end IsMoves

lemma Orderly.visit?_of_mem (h : Orderly places closed s) (hv : v ∈ s.visits) :
    s.visit? v.id = some v := by
  unfold visit?
  cases found : s.visits.find? (·.id = v.id) with
  | none => exact absurd (List.find?_eq_none.mp found v hv) (by simp)
  | some w =>
    have same := List.find?_some found
    rw [Visit.eq_of_id h.distinct hv (List.mem_of_find?_eq_some found) (by simpa using same)]

lemma pending?_of_visit? (found : s.visit? v.id = some v) (pending : v.isFinished = false) :
    s.pending? v.id = some v := by
  rw [pending?, found, Option.filter_some, if_pos (by rw [pending]; rfl)]

lemma leads_proceed (found : s.visit? v.id = some v) (pending : v.isFinished = false) :
    Leads s (s.proceed env v rest) := by
  have step : s.step (.goOn env v.id rest) = s.proceed env v rest := by
    rw [step, pending?_of_visit? found pending]
  exact step ▸ .move s _

lemma leads_giveUp (found : s.visit? v.id = some v) (pending : v.isFinished = false) :
    Leads s (s.giveUp v) := by
  have step : s.step (.giveUp v.id) = s.giveUp v := by
    rw [step, pending?_of_visit? found pending]
  exact step ▸ .move s _

lemma leads_callOff (found : s.visit? v.id = some v) (pending : v.isFinished = false) :
    Leads s (s.callOff env v) :=
  (Leads.share s (s.resources.abandon v.id)).trans (leads_proceed found pending)

/-- Other requests are as they were. -/
lemma visit?_putVisit (other : id ≠ w.id) : (s.putVisit w).visit? id = s.visit? id := by
  unfold visit? putVisit
  dsimp only
  rw [List.find?_map]
  have same : (fun u : Visit => decide (u.id = id)) ∘ (fun u => if u.id = w.id then w else u) =
      fun u => decide (u.id = id) := by
    funext u
    dsimp only [Function.comp_apply]
    by_cases e : u.id = w.id
    · rw [if_pos e, e]
    · rw [if_neg e]
  rw [same]
  cases found : s.visits.find? fun u => u.id = id with
  | none => rfl
  | some u =>
    have named : u.id = id := by simpa using List.find?_some found
    rw [Option.map_some, if_neg fun e => other (named.symm.trans e)]

lemma visit?_proceed (other : id ≠ v.id) : (s.proceed env v rest).visit? id = s.visit? id := by
  let w := v.toVisitor.standingAt (s.resources.run env v.id rest).2
  have same : w.id = v.id := congrArg Visitor.id (Visit.toVisitor_standingAt ..)
  have put : (s.proceed env v rest).visit? id =
      ({ s with resources := (s.resources.run env v.id rest).1 }.putVisit w).visit? id := rfl
  rw [put, visit?_putVisit (by rwa [same])]
  rfl

lemma visit?_giveUp (other : id ≠ v.id) : (s.giveUp v).visit? id = s.visit? id :=
  visit?_putVisit (w := v.toVisitor.answered .timeout) other

/-- What is done for each of some requests, one after the other, is done by moves. -/
lemma leads_foldl (f : Server → Visit → Server) (list : List Visit)
    (distinct : (list.map (·.id)).Nodup) (found : ∀ v ∈ list, s.visit? v.id = some v)
    (one : ∀ (s : Server), ∀ v ∈ list, s.visit? v.id = some v →
      Leads s (f s v) ∧ ∀ id, id ≠ v.id → (f s v).visit? id = s.visit? id) :
    Leads s (list.foldl f s) := by
  induction list generalizing s with
  | nil => exact .refl s
  | cons v rest ih =>
    obtain ⟨new, distinct⟩ := List.nodup_cons.mp distinct
    obtain ⟨leads, others⟩ := one s v List.mem_cons_self (found v List.mem_cons_self)
    refine leads.trans (ih distinct (fun w hw => ?_) fun s w hw => one s w (List.mem_cons_of_mem _ hw))
    have other : w.id ≠ v.id := fun same => new (List.mem_map.mpr ⟨w, hw, same⟩)
    rw [others w.id other]
    exact found w (List.mem_cons_of_mem _ hw)

lemma Orderly.leads_foldl_filter (h : Orderly places closed s) (p : Visit → Bool)
    (f : Server → Visit → Server)
    (one : ∀ (s : Server), ∀ v, p v = true → s.visit? v.id = some v →
      Leads s (f s v) ∧ ∀ id, id ≠ v.id → (f s v).visit? id = s.visit? id) :
    Leads s ((s.visits.filter p).foldl f s) := by
  refine leads_foldl f _ (h.distinct.sublist (List.filter_sublist.map _)) (fun v hv => ?_)
    fun s v hv => one s v (List.mem_filter.mp hv).2
  exact h.visit?_of_mem (List.mem_of_mem_filter hv)

lemma isMoves_giveUpLate : IsMoves giveUpLate where
  leads h := by
    refine h.leads_foldl_filter _ giveUp fun s v late found => ⟨?_, fun id => visit?_giveUp⟩
    rw [Bool.and_eq_true, Bool.not_eq_true'] at late
    exact leads_giveUp found late.1

lemma isMoves_terminate (env : Surroundings) : IsMoves (terminate env) where
  leads {places closed s} h := by
    have closing : Leads s { s with gate := s.gate.terminate } := .move s .terminate
    obtain ⟨_, h⟩ := h.leads closing
    refine closing.trans (h.leads_foldl_filter _ (callOff env) fun s v pending found =>
      ⟨?_, fun id => visit?_proceed⟩)
    rw [Bool.not_eq_true'] at pending
    exact leads_callOff found pending

lemma isMoves_wakeSleepers (env : Surroundings) : IsMoves (wakeSleepers env) where
  leads h := by
    refine leads_foldl (wakeSleeper env) _ h.distinct (fun v hv => h.visit?_of_mem hv)
      fun s v _ found => ?_
    unfold wakeSleeper
    split
    · next e =>
      split
      · have pending : v.isFinished = false := by rw [Visit.isFinished, e]
        exact ⟨leads_proceed found pending, fun id => visit?_proceed⟩
      · exact ⟨.refl s, fun _ _ => rfl⟩
    · exact ⟨.refl s, fun _ _ => rfl⟩

lemma leads_wakeNext (h : Orderly places closed s) (woken : s.wakeNext env = some t) : Leads s t := by
  unfold wakeNext at woken
  simp only [Option.bind_eq_bind, Option.bind_eq_some_iff] at woken
  obtain ⟨i, -, pool, -, ⟨pool, ticket, outcome⟩, -, woken⟩ := woken
  have shared : Leads s { s with resources := s.resources.updatePool i fun _ => pool } := .share s _
  obtain ⟨closed, h⟩ := h.leads shared
  refine shared.trans ?_
  split at woken
  · obtain rfl := Option.some.inj woken
    exact .refl _
  · next v found =>
    have hv := List.mem_of_find?_eq_some found
    split at woken
    all_goals obtain rfl := Option.some.inj woken
    · next e _ => exact leads_proceed (h.visit?_of_mem hv) (by rw [Visit.isFinished, e])
    · next e _ => exact leads_proceed (h.visit?_of_mem hv) (by rw [Visit.isFinished, e])
    · exact .refl _

lemma isMoves_settle (env : Surroundings) (steps : Nat) : IsMoves (settle env steps) := by
  induction steps with
  | zero => exact .idle
  | succ steps ih =>
    refine ⟨fun {places closed s} h => ?_⟩
    unfold settle
    split
    · next t woken =>
      have first := leads_wakeNext h woken
      obtain ⟨_, h⟩ := h.leads first
      exact first.trans (ih.leads h)
    · exact .refl s

lemma isMoves_moveTo (env : Surroundings) (time : Nat) : IsMoves (moveTo env · time) := by
  have clock : IsMoves fun s => { s with resources := { s.resources with now := time } } :=
    .share fun s => { s.resources with now := time }
  have due : IsMoves wakeWaiting := .share _
  exact (isMoves_settle env maxSteps).comp
    (due.comp ((isMoves_wakeSleepers env).comp (isMoves_giveUpLate.comp clock)))

lemma isMoves_await (env : Surroundings) (id steps : Nat) : IsMoves (await env id steps) := by
  induction steps with
  | zero => exact .idle
  | succ steps ih =>
    refine ⟨fun {places closed s} h => ?_⟩
    unfold await
    split
    · exact .refl s
    · split
      · next time _ => exact (ih.comp (isMoves_moveTo env time)).leads h
      · exact .refl s

lemma isMoves_drainUntil (env : Surroundings) (due steps : Nat) :
    IsMoves fun s => (s.drainUntil env due steps).1 := by
  induction steps with
  | zero => exact .idle
  | succ steps ih =>
    refine ⟨fun {places closed s} h => ?_⟩
    unfold drainUntil
    split
    · exact .refl s
    · exact (ih.comp (isMoves_moveTo env _)).leads h

lemma isMoves_accept (env : Surroundings) (r : Request) : IsMoves fun s => (s.accept env r).1 :=
  (isMoves_settle env maxSteps).comp (.move (.arrive env r))

lemma isMoves_leave (env : Surroundings) (id : Nat) : IsMoves (leave env · id) where
  leads {places closed s} h := by
    unfold leave
    cases found : s.visit? id with
    | none => exact .refl s
    | some v =>
      have gone : s.step (.dismiss id) = s.dismiss v := by rw [step, found]
      have first : Leads s (s.dismiss v) := gone ▸ .move s _
      obtain ⟨_, h⟩ := h.leads first
      exact first.trans ((isMoves_settle env maxSteps).leads h)

/-- What is done with a server. -/
inductive Operation (env : Surroundings) : Server → Server → Prop where
  | accept (s : Server) (r : Request) : Operation env s (s.accept env r).1
  | serve (s : Server) (r : Request) : Operation env s (s.serve env r).1
  | leave (s : Server) (id : Nat) : Operation env s (s.leave env id)
  | moveTo (s : Server) (time : Nat) : Operation env s (s.moveTo env time)
  | settled (s : Server) : Operation env s (s.settled env)
  | await (s : Server) (id steps : Nat) : Operation env s (s.await env id steps)
  | close (s : Server) : Operation env s { s with gate := s.gate.close }
  | terminate (s : Server) : Operation env s (s.terminate env)
  | drain (s : Server) (ms : Nat) : Operation env s (s.drain env ms).1
  /-- Something else changes that requests share, for instance how backends answer. -/
  | share (s : Server) (resources : Resources) : Operation env s { s with resources }

/-- Whatever is done with a server comes to some moves. -/
theorem Operation.leads (h : Orderly places closed s) (op : Operation env s t) : Leads s t := by
  cases op with
  | accept r => exact (isMoves_accept env r).leads h
  | serve r => exact ((isMoves_await env _ maxSteps).comp (isMoves_accept env r)).leads h
  | leave id => exact (isMoves_leave env id).leads h
  | moveTo time => exact (isMoves_moveTo env time).leads h
  | settled => exact (isMoves_settle env maxSteps).leads h
  | await id steps => exact (isMoves_await env id steps).leads h
  | close => exact .move s .close
  | terminate => exact (isMoves_terminate env).leads h
  | drain ms => exact (isMoves_drainUntil env _ maxSteps).leads h
  | share resources => exact .share s resources

lemma exists_follow_eq (h : Orderly places closed s)
    (ops : Relation.ReflTransGen (Operation env) s t) : Leads s t := by
  induction ops with
  | refl => exact .refl s
  | tail _ op ih =>
    obtain ⟨_, h⟩ := h.leads ih
    exact ih.trans (op.leads h)

/-- Draining ends well only when no request is in flight. -/
lemma inFlight_of_drainUntil {due steps : Nat} (done : (s.drainUntil env due steps).2 = true) :
    (s.drainUntil env due steps).1.gate.inFlight = 0 := by
  induction steps generalizing s with
  | zero => exact of_decide_eq_true done
  | succ steps ih =>
    unfold drainUntil at done ⊢
    cases ended : s.gate.news? s.resources.now (.drain due) with
    | some news =>
      rw [ended] at done
      obtain rfl := of_decide_eq_true done
      exact Gate.inFlight_of_news ended
    | none =>
      rw [ended] at done
      exact ih done

/-- Admission keeps its accounts. Whatever is done with a gate, it counts who was let in and has not
left, never more than it has places, and turns others away for the reasons there are. On a server those
hold a place who are being handled and those whose answer has not been read; who is refused is answered
without anything being done for him and leaves the gate as it was. Whatever is done with a server comes
to moves of this kind, and a drain that is complete leaves nobody in flight. -/
theorem admissions_accounted (places : Nat) (uses : List Gate.Move) (c : Config) (table : RoutingTable)
    (resources : Resources) (moves : List Move) :
    Gate.Accounted places uses ((Gate.ofLimit places).run uses) ∧
      Accounted c.requestsLimit moves ((ofConfig c table resources).follow moves) ∧
      ((∀ rejection : Rejection, rejection.failure.reply.status = .serviceUnavailable) ∧
        ∀ method, (Reply.methodRefused method).status = .methodNotAllowed) ∧
      (∀ env t, Relation.ReflTransGen (Operation env) (ofConfig c table resources) t →
        ∃ moves, t = (ofConfig c table resources).follow moves) ∧
      ∀ env (s : Server) ms, (s.drain env ms).2 = true → (s.drain env ms).1.gate.inFlight = 0 := by
  refine ⟨Gate.accounted_run places uses, accounted_follow c table resources moves, ⟨?_, ?_⟩, ?_, ?_⟩
  · intro rejection
    cases rejection <;> rfl
  · intro method
    rfl
  · intro env t ops
    exact exists_follow_eq (orderly_ofConfig c table resources) ops
  · intro env s ms done
    exact inFlight_of_drainUntil done

/-- A server with one place. The second request finds it taken, and the first gives it back. -/
theorem admissions_accounted_one_place :
    let c : Config := { requestsLimit := 1 }
    let table : RoutingTable := .ofRoutes [] [] (Assembly.notManaged {})
    let env : Surroundings :=
      { token := toString, requestId := toString, network := fun _ _ => .unreachable }
    let asked : Request := { uri := { path := "/nowhere" } }
    let uses : List Gate.Move := [.letIn 0, .letIn 1, .close, .release 0]
    let g := (Gate.ofLimit 1).run uses
    let s := (ofConfig c table {}).follow [.arrive env asked]
    (g.inFlight = 0 ∧ g.letIn 2 = .error .draining) ∧
      s.gate.inFlight = 1 ∧
      s.Refuses env asked (Rejection.failure .limitReached).reply (Rejection.events .limitReached) ∧
      0 ∉ (s.follow [.dismiss 0]).inside ∧
      (s.drain env 0).2 = false ∧ ((s.leave env 0).drain env 0).2 = true ∧
        ((s.leave env 0).drain env 0).1.gate.inFlight = 0 := by
  intro c table env asked uses g s
  obtain ⟨gate, server, -, -, drained⟩ :=
    admissions_accounted 1 uses c table {} [.arrive env asked]
  have inside : s.inside = [0] := by decide +kernel
  have refused := server.arrive env asked
  rw [if_neg (by decide), if_pos (by rw [inside]; rfl)] at refused
  have left : ((s.leave env 0).drain env 0).2 = true := by decide +kernel
  refine ⟨⟨?_, ?_⟩, ?_, refused, ?_, by decide +kernel, left, drained env _ 0 left⟩
  · exact gate.inFlight
  · rw [gate.letIn, if_pos (by decide)]
  · exact server.inFlight.trans (congrArg List.length inside)
  · exact server.dismissed 0 [] (by decide +kernel)

end Gateway.Server
