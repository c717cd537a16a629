import Gateway.Proofs.Pipeline.Reception
import Gateway.Proofs.Security.Veto
import Gateway.Site.Stage

/-! Runs of a pipeline that serves a directory. The gateway's own stages let every request through, so the
site answers it, and all that is left after that are the interceptors of the response. -/
namespace Gateway

namespace Site
variable {s : Site} {x y : Exchange} {t : Trace} {done handled : List Stage}

/-- The exchange with the answer of the site. -/
def answered (s : Site) (x : Exchange) : Exchange :=
  match Uri.parse (s.filePath x.relativePath) with
  | .error _ => x.fail (.notFound x.path)
  | .ok uri => { x with response := s.adopt (Files.serve s.files s.root x.method uri) x.response }

lemma answered_of_parse {uri : Uri} (read : Uri.parse (s.filePath x.relativePath) = .ok uri) :
    s.answered x = { x with response := s.adopt (Files.serve s.files s.root x.method uri) x.response } := by
  rw [answered, read]

/-- As the last stage the site always comes to its answer. -/
lemma of_run_stage (run : Job.Run (Pipeline.runStages done [s.stage] x) t (handled, y)) :
    handled = s.stage :: done ∧ y = s.answered x := by
  rw [Pipeline.runStages_cons, Job.run_bind_iff] at run
  obtain ⟨u, v, ⟨r, m⟩, -, ran, rest⟩ := run
  have viewed := Handler.runs_view_bind_iff.mp ran
  unfold answered
  cases read : Uri.parse (s.filePath x.relativePath) with
  | error e =>
    rw [read] at viewed
    obtain ⟨-, rfl, rfl⟩ := Handler.runs_throw_iff.mp viewed
    obtain ⟨_, _, ⟨_, n⟩, -, failed, ends⟩ := Job.run_bind_iff.mp rest
    obtain ⟨-, rfl⟩ := ExchangeJob.runs_change_iff.mp failed
    obtain ⟨-, same⟩ := Job.run_done_iff.mp ends
    exact Prod.mk.inj same
  | ok uri =>
    rw [read] at viewed
    obtain ⟨_, -, proceeds⟩ := Handler.runs_change_bind_iff.mp viewed
    obtain ⟨-, rfl, rfl⟩ := Handler.runs_pure_iff.mp proceeds
    obtain ⟨-, same⟩ := Job.run_done_iff.mp rest
    exact Prod.mk.inj same

end Site

/-- A stage that only changes the exchange, and keeps what the response body holds, proceeds and asks for
nothing. -/
lemma Handler.runs_change_proceed {f : Exchange → Exchange} {x : Exchange} (same : (f x).guards = x.guards) :
    Handler.Runs (do Handler.change f; pure Flow.proceed) x [] (.ok .proceed) (f x) := by
  refine Handler.runs_change_bind_iff.mpr ⟨[], ?_, Handler.runs_pure_iff.mpr ⟨rfl, rfl, rfl⟩⟩
  rw [Exchange.releases_dropped_of_guards same, List.append_nil]

namespace Assembly
variable {a : Assembly} {info : RouteInfo} {s : Site} {x z : Exchange} {t : Trace}

/-- Nothing stops a request on its way to a directory, and what came in stays as it was. -/
lemma exists_front (a : Assembly) (info : RouteInfo) (x : Exchange) :
    ∃ m, Passes [Stage.routeInfo info, a.trace, a.requestLog, Stage.poweredBy] x [] m ∧
      m.inbound = { x with info := some info }.inbound := by
  refine Passes.exists_cons (Stage.runs_routeInfo_iff.mpr ⟨rfl, rfl, rfl⟩) ?_
  refine Passes.exists_cons (Handler.runs_change_proceed (Trace.guards_traced _ _)) ?_
  refine Passes.exists_cons (.done _) ?_
  refine Passes.exists_cons (Handler.runs_change_proceed rfl) ?_
  exact ⟨_, .nil _, Trace.inbound_traced _ _⟩

/-- In every run the site answers the request that came in, and the interceptors of the response go on from
there. -/
theorem answered_of_run (run : Job.Run ((a.static info s.stage).execute x) t z) :
    ∃ m v handled, m.inbound = { x with info := some info }.inbound ∧
      (∀ st ∈ handled, st ∈ (a.static info s.stage).stages) ∧
        ((a.static info s.stage).finish handled).Runs (s.answered m) v () z := by
  obtain ⟨m, way, inbound⟩ := exists_front a info x
  have stages : (a.static info s.stage).stages =
      [Stage.routeInfo info, a.trace, a.requestLog, Stage.poweredBy] ++ [s.stage] := rfl
  obtain ⟨v, w, handled, n, -, ran, ending⟩ := (Pipeline.run_execute_iff_of_passes stages way).mp run
  obtain ⟨rfl, rfl⟩ := Site.of_run_stage ran
  refine ⟨m, w, _, inbound, fun st mem => ?_, ending⟩
  rw [stages, List.mem_append, List.mem_singleton]
  exact (List.mem_cons.mp mem).symm.imp_left List.mem_reverse.mp

/-- What the interceptors of the response leave of the answer is what the caller gets. -/
theorem static_keeps {γ : Type} {f : Exchange → γ} (content : ∀ x : Exchange, f x.releaseContent = f x)
    (prepares : ∀ m list t y, m.inbound = { x with info := some info }.inbound →
      a.interceptors.Prepares (s.answered m) list t y → f y = f (s.answered m))
    (unaltered : ∀ i ∈ a.interceptors.atPoint .response,
      (Pipeline.runResponseInterceptor i).Obeys (.keeping f))
    (run : Job.Run ((a.static info s.stage).execute x) t z) :
    ∃ m, m.inbound = { x with info := some info }.inbound ∧ f z = f (s.answered m) := by
  obtain ⟨m, v, handled, inbound, ran, ending⟩ := answered_of_run run
  refine ⟨m, inbound, ?_⟩
  exact finish_keeps (b := .static info s.stage) content (.pure (Rule.composes_keeping _) ())
    (fun list t y => prepares m list t y inbound) unaltered ran ending

end Assembly

/-- What the pipeline of a route starts on is still there when its site is asked. -/
lemma Route.of_inbound {route : Route} {m : Exchange} {req : Request} {limits : ContentLimits}
    (inbound : m.inbound = { route.start limits req with info := some route.info }.inbound) :
    m.relativePath = route.relativePath req.uri.path ∧ m.method = req.method ∧ m.limits = limits :=
  ⟨congrArg Exchange.relativePath inbound, congrArg Exchange.method inbound, congrArg Exchange.limits inbound⟩

end Gateway
