import Gateway.Proofs.Server.Ownership
import Gateway.Proofs.Server.Stakes

/-! The traffic of a gateway: requests on their way, requests that wait for a lease, and answers that are
being read, in any order. Nobody holds more than was given out, and all of it comes back. -/
namespace Gateway

/-- Where someone stands who has asked a pool for a lease. -/
def Admittance.standing (pool ticket : Nat) : Admittance → Standing (Except Failure Lease)
  | granted lease => .finished (.ok lease)
  | refused f => .finished (.error f)
  | waits => .queued pool ticket .done

lemma Resources.run_lease {env : Surroundings} {r more : Resources} {owner pool ticket : Nat}
    {outcome : Admittance} (asked : r.lease owner pool = (more, ticket, outcome)) :
    r.run env owner (Job.perform (.lease pool)) = (more, outcome.standing pool ticket) := by
  rw [Job.perform, Resources.run, asked]
  cases outcome <;> rfl

/-- A job is run effect by effect. -/
lemma Resources.run_ask (env : Surroundings) (owner : Nat) (e : Effect) (rest : e.Answer → Job Reply)
    (r : Resources) : r.run env owner (.ask e rest) = match r.run env owner (Job.perform e) with
      | (r, .finished answer) => r.run env owner (rest answer)
      | (r, .asleep due job) => (r, .asleep due (job >>= rest))
      | (r, .queued pool ticket job) => (r, .queued pool ticket fun outcome => job outcome >>= rest) := by
  cases e with
  | lease pool =>
    cases asked : r.lease owner pool with
    | mk more answer =>
      obtain ⟨ticket, outcome⟩ := answer
      rw [Resources.run_lease asked, Resources.run, asked]
      cases outcome <;> rfl
  | pause ms =>
    simp only [Job.perform, Resources.run]
    split <;> rfl
  | _ => rfl

/-- Someone who uses the pools of a gateway. -/
inductive Task where
  /-- It holds something and has still something to do. -/
  | going (held : List Guard) (rest : Job Reply)
  /-- It is parked at a pool. -/
  | queued (held : List Guard) (pool ticket : Nat) (rest : Except Failure Lease → Job Reply)
  /-- Its answer is there and has not been read to its end. -/
  | answered (reply : Reply)
  | gone

namespace Task

def stake : Task → Stake
  | going held _ => { held }
  | queued held pool ticket _ => { held, place := some (pool, ticket) }
  | answered reply => { held := reply.body.guards }
  | gone => .nothing

/-- What is left to do owns what is held. -/
def Proper : Task → Prop
  | going held rest => held.Nodup ∧ rest.Owns (·.body.guards) held
  | queued held pool _ rest => held.Nodup ∧ (Job.ask (.lease pool) rest).Owns (·.body.guards) held
  | answered reply => reply.body.guards.Nodup
  | gone => True

/-- A task goes on when an effect has been performed, or waits for that. -/
def resumed (held : List Guard) (e : Effect) (rest : e.Answer → Job Reply) :
    Standing e.Answer → Task
  | .finished answer => .going (e.held held answer) (rest answer)
  | .asleep _ job => .going held (job >>= rest)
  | .queued pool ticket job => .queued held pool ticket fun outcome => job outcome >>= rest

/-- The task of a request that has run as far as it can. -/
def stopped (held : List Guard) : Standing Reply → Task
  | .finished reply => .answered reply
  | .asleep _ job => .going held job
  | .queued pool ticket job => .queued held pool ticket job

end Task

structure Traffic where
  resources : Resources
  tasks : List Task := []

namespace Traffic

inductive Move where
  | wait (milliseconds : Nat)
  /-- The requests of a pool look again whose time has come. -/
  | wakeDue (pool : Nat)
  | start (job : Job Reply)
  /-- Someone comes with a lease, if there is one at once. -/
  | tryLease (pool : Nat) (next : Option Lease → Job Reply)
  /-- A task performs an effect. -/
  | advance (env : Surroundings) (task : Nat)
  /-- A task looks that was woken. -/
  | look (task : Nat)
  /-- An answer has been read or is dropped, or a request is called off on its way. -/
  | leave (task : Nat)

def ofPools (pools : List Pool) : Traffic := { resources := { pools } }

def advance (env : Surroundings) (v : Traffic) (k : Nat) : Traffic :=
  match v.tasks[k]? with
  | some (.going _ (.done reply)) => { v with tasks := v.tasks.set k (.answered reply) }
  | some (.going held (.ask e rest)) =>
    let (resources, standing) := v.resources.run env k (Job.perform e)
    { resources, tasks := v.tasks.set k (.resumed held e rest standing) }
  | _ => v

def look (v : Traffic) (k : Nat) : Traffic :=
  match v.tasks[k]? with
  | some (.queued held pool ticket rest) =>
    match v.resources.pools[pool]? with
    | none => v
    | some p =>
      match p.woken.findIdx? (·.ticket = ticket) with
      | none => v
      | some i =>
        let (p, outcome) := { p with woken := p.woken.eraseIdx i }.settleIn v.resources.now ticket
        { resources := v.resources.updatePool pool fun _ => p
          tasks := v.tasks.set k (.resumed held (.lease pool) rest (outcome.standing pool ticket)) }
  | _ => v

def leave (v : Traffic) (k : Nat) : Traffic :=
  match v.tasks[k]? with
  | none => v
  | some (.answered reply) =>
    { resources := v.resources.releaseAll reply.body.guards, tasks := v.tasks.set k .gone }
  | some _ => { resources := v.resources.abandon k, tasks := v.tasks.set k .gone }

def tryLease (v : Traffic) (pool : Nat) (next : Option Lease → Job Reply) : Traffic :=
  let (resources, lease) := v.resources.tryLease v.tasks.length pool
  let held := lease.toList.map fun l => .lease pool l.ticket
  { resources, tasks := v.tasks ++ [.going held (next lease)] }

def step (v : Traffic) : Move → Traffic
  | .wait milliseconds =>
    { v with resources := { v.resources with now := v.resources.now + milliseconds } }
  | .wakeDue pool => { v with resources := v.resources.updatePool pool (·.wakeDue v.resources.now) }
  | .start job => { v with tasks := v.tasks ++ [.going [] job] }
  | .tryLease pool next => v.tryLease pool next
  | .advance env k => v.advance env k
  | .look k => v.look k
  | .leave k => v.leave k

def run (v : Traffic) (moves : List Move) : Traffic := moves.foldl step v

/-- Who comes owns nothing but the lease that is found for him, and no backend answers with a body
that holds anything. -/
def Move.Proper : Move → Prop
  | .start job => job.Owns (·.body.guards) []
  | .tryLease pool next => (next none).Owns (·.body.guards) [] ∧
      ∀ lease, (next (some lease)).Owns (·.body.guards) [.lease pool lease.ticket]
  | .advance env _ => ∀ lease request status headers body,
      env.network lease request = .answered status headers body → body.guards = []
  | _ => True

def stakes (v : Traffic) : List Stake := v.tasks.map Task.stake

/-- What the pools count is what the tasks have. -/
structure Balanced (designs : List (PoolOptions × List Nat)) (v : Traffic) : Prop where
  counted : Counted designs v.resources.pools v.resources.ticketsDrawn v.stakes
  claimed : Claimed v.resources.claims v.resources.ticketsDrawn v.stakes
  proper : ∀ (k : Nat) (task : Task), v.tasks[k]? = some task → task.Proper

variable {designs : List (PoolOptions × List Nat)} {v : Traffic} {k : Nat} {task next : Task}
  {r : Resources} {held : List Guard} {env : Surroundings}

lemma stake_of_task (at_ : v.tasks[k]? = some task) : v.stakes[k]? = some task.stake := by
  rw [stakes, List.getElem?_map, at_]
  rfl

namespace Balanced

/-- One task goes on. -/
lemma put (h : Balanced designs v)
    (counted : Counted designs r.pools r.ticketsDrawn (v.stakes.set k next.stake))
    (claimed : Claimed r.claims r.ticketsDrawn (v.stakes.set k next.stake)) (proper : next.Proper) :
    Balanced designs { resources := r, tasks := v.tasks.set k next } := by
  have same : ({ resources := r, tasks := v.tasks.set k next } : Traffic).stakes =
      v.stakes.set k next.stake := List.map_set
  refine ⟨same ▸ counted, same ▸ claimed, fun j task found => ?_⟩
  obtain ⟨-, rfl⟩ | ⟨-, found⟩ := eq_or_of_set found
  · exact proper
  · exact h.proper j task found

/-- It goes on without a change of what it has. -/
lemma goOn (h : Balanced designs v) (at_ : v.tasks[k]? = some task) (same : next.stake = task.stake)
    (pools : Counted designs r.pools r.ticketsDrawn v.stakes)
    (claims : Claimed r.claims r.ticketsDrawn v.stakes) (proper : next.Proper) :
    Balanced designs { resources := r, tasks := v.tasks.set k next } := by
  refine h.put ?_ ?_ proper
  all_goals rwa [same, set_of_getElem? (stake_of_task at_)]

/-- Someone comes. -/
lemma come (h : Balanced designs v)
    (counted : Counted designs r.pools r.ticketsDrawn (v.stakes ++ [next.stake]))
    (claimed : Claimed r.claims r.ticketsDrawn (v.stakes ++ [next.stake])) (proper : next.Proper) :
    Balanced designs { resources := r, tasks := v.tasks ++ [next] } := by
  have same : ({ resources := r, tasks := v.tasks ++ [next] } : Traffic).stakes =
      v.stakes ++ [next.stake] := List.map_append
  refine ⟨same ▸ counted, same ▸ claimed, fun j task found => ?_⟩
  rw [List.getElem?_append] at found
  split at found
  · exact h.proper j task found
  · obtain rfl := List.mem_singleton.mp (List.mem_of_getElem? found)
    exact proper

lemma answer (h : Balanced designs v) {reply : Reply}
    (at_ : v.tasks[k]? = some (.going held (.done reply))) :
    Balanced designs { v with tasks := v.tasks.set k (.answered reply) } := by
  obtain ⟨once, after, same⟩ := h.proper k _ at_
  have count (g : Guard) : reply.body.guards.count g = held.count g :=
    ((List.perm_ext_iff_of_nodup once after).mpr same).count_eq g |>.symm
  have own := stake_of_task at_
  refine h.put (h.counted.replace own (fun i t => count _) (fun _ _ => rfl) fun _ => rfl)
    (h.claimed.set own fun i t pos => .inl ?_) after
  have same : (Task.answered reply).stake.leases i t = (Task.going held (.done reply)).stake.leases i t :=
    count _
  rw [same] at pos
  exact pos

/-- A pool has answered a task. -/
lemma reply (h : Balanced designs v) {pool ticket : Nat} {outcome : Admittance}
    {rest : Except Failure Lease → Job Reply}
    (counted : Counted designs r.pools r.ticketsDrawn
      (v.stakes.set k (Stake.answered { held } pool ticket outcome)))
    (claimed : Claimed r.claims r.ticketsDrawn
      (v.stakes.set k (Stake.answered { held } pool ticket outcome)))
    (named : ∀ lease, outcome = .granted lease → lease.ticket = ticket) (once : held.Nodup)
    (new : .lease pool ticket ∉ held)
    (owns : (Job.ask (.lease pool) rest).Owns (·.body.guards) held) :
    Balanced designs
      { resources := r
        tasks := v.tasks.set k
          (.resumed held (.lease pool) rest (outcome.standing pool ticket)) } := by
  cases outcome with
  | granted lease =>
    obtain rfl := named lease rfl
    exact h.put counted claimed ⟨List.nodup_cons.mpr ⟨new, once⟩, owns.2 (.ok lease) new⟩
  | refused f => exact h.put counted claimed ⟨once, owns.2 (.error f) trivial⟩
  | waits => exact h.put counted claimed ⟨once, owns⟩

/-- An effect is performed for a task that may have it performed. -/
lemma effect (h : Balanced designs v) {e : Effect} {rest : e.Answer → Job Reply}
    (at_ : v.tasks[k]? = some (.going held (.ask e rest)))
    (bare : ∀ lease request status headers body,
      env.network lease request = .answered status headers body → body.guards = []) :
    let done := v.resources.run env k (Job.perform e)
    Balanced designs
      { resources := done.1, tasks := v.tasks.set k (.resumed held e rest done.2) } := by
  obtain ⟨once, permitted, owns⟩ := h.proper k _ at_
  have own := stake_of_task at_
  cases e with
  | emit event => exact h.goOn at_ rfl h.counted h.claimed ⟨once, owns () trivial⟩
  | verifyToken value => exact h.goOn at_ rfl h.counted h.claimed ⟨once, owns _ trivial⟩
  | issueToken account => exact h.goOn at_ rfl h.counted h.claimed ⟨once, owns _ trivial⟩
  | lease pool =>
    cases asked : v.resources.lease k pool with
    | mk more answer =>
      obtain ⟨ticket, outcome⟩ := answer
      obtain ⟨rfl, named⟩ := Resources.ticket_of_lease asked
      obtain ⟨counted, claimed⟩ := h.counted.lease h.claimed own rfl asked
      have new : .lease pool v.resources.ticketsDrawn ∉ held :=
        List.count_eq_zero.mp (h.claimed.unleased own)
      rw [Resources.run_lease asked]
      exact h.reply counted claimed named once new ⟨trivial, owns⟩
  | reportFailure pool ticket =>
    obtain ⟨counted, claimed⟩ := h.counted.report h.claimed pool
      (fun p sound => sound.reportFailure) fun p => p.still_reportFailure v.resources.now ticket
    exact h.goOn at_ rfl counted claimed ⟨once, owns () trivial⟩
  | reportSuccess pool ticket =>
    obtain ⟨counted, claimed⟩ := h.counted.report h.claimed pool
      (fun p sound => sound.reportSuccess) fun p => p.still_reportSuccess ticket
    exact h.goOn at_ rfl counted claimed ⟨once, owns () trivial⟩
  | release g =>
    obtain ⟨claims, drawn⟩ := v.resources.release_kept g
    refine h.put (r := v.resources.release g) ?_ ?_ ⟨once.filter _, owns () trivial⟩
    · rw [drawn]
      exact h.counted.release own permitted
    · rw [claims, drawn]
      refine h.claimed.set own fun i t pos => .inl (Nat.lt_of_lt_of_le pos ?_)
      exact Nat.add_le_add_right (List.filter_sublist.count_le _) _
  | send lease request =>
    refine h.goOn at_ rfl h.counted h.claimed ⟨once, owns _ ?_⟩
    cases e : env.network lease request with
    | answered status headers body => exact bare lease request status headers body e
    | unreachable => exact trivial
    | broken reason => exact trivial
  | pause ms =>
    intro done
    have same : done.1 = v.resources ∧
        Task.resumed held (.pause ms) rest done.2 = .going held (rest ()) := by
      dsimp only [done, Job.perform, Resources.run]
      split <;> exact ⟨rfl, rfl⟩
    rw [same.1, same.2]
    exact h.goOn at_ rfl h.counted h.claimed ⟨once, owns () trivial⟩

lemma look (h : Balanced designs v) (k : Nat) : Balanced designs (v.look k) := by
  unfold Traffic.look
  split
  · next held pool ticket rest at_ =>
    split
    · exact h
    · next p pool_ =>
      split
      · exact h
      · next i found =>
        obtain ⟨lt, named, -⟩ := List.findIdx?_eq_some_iff_getElem.mp found
        obtain rfl := of_decide_eq_true named
        obtain ⟨once, owns⟩ := h.proper k _ at_
        obtain ⟨unleased, counted, claimed⟩ := h.counted.look h.claimed (stake_of_task at_) rfl pool_
          (List.getElem?_eq_getElem lt)
        refine h.reply counted claimed (fun lease granted => ?_) once (List.count_eq_zero.mp unleased)
          owns
        exact Pool.ticket_of_settleIn (Prod.ext rfl granted)
  · exact h

lemma leave (h : Balanced designs v) (k : Nat) : Balanced designs (v.leave k) := by
  unfold Traffic.leave
  split
  · exact h
  · next reply at_ =>
    obtain ⟨claims, drawn⟩ := v.resources.releaseAll_kept reply.body.guards
    refine h.put ?_ ?_ trivial
    · rw [drawn]
      exact h.counted.releaseAll (stake_of_task at_) (h.proper k _ at_)
    · rw [claims, drawn]
      exact h.claimed.set (stake_of_task at_) nofun
  · next task _ at_ =>
    obtain ⟨claims, drawn⟩ := v.resources.abandon_claims k
    refine h.put ?_ ?_ trivial
    · rw [drawn]
      exact h.counted.abandon h.claimed (stake_of_task at_)
    · rw [claims, drawn]
      exact h.claimed.leave k

lemma tryLease (h : Balanced designs v) {pool : Nat} {next : Option Lease → Job Reply}
    (proper : (Move.tryLease pool next).Proper) : Balanced designs (v.tryLease pool next) := by
  have length : v.stakes.length = v.tasks.length := List.length_map _
  have own : (v.stakes ++ [Stake.nothing])[v.tasks.length]? = some Stake.nothing := by
    rw [← length, List.getElem?_concat_length]
  have set (s : Stake) : (v.stakes ++ [Stake.nothing]).set v.tasks.length s = v.stakes ++ [s] := by
    rw [← length, List.set_append_right _ _ (Nat.le_refl _), Nat.sub_self]
    rfl
  unfold Traffic.tryLease
  cases asked : v.resources.tryLease v.tasks.length pool with
  | mk more lease =>
    obtain ⟨counted, claimed⟩ := h.counted.push.tryLease h.claimed.push own rfl asked
      (.internal "no such pool")
    rw [set] at counted claimed
    cases lease with
    | none => exact h.come counted claimed ⟨List.nodup_nil, proper.1⟩
    | some lease =>
      rw [← Resources.ticket_of_tryLease asked] at counted claimed
      exact h.come counted claimed ⟨List.nodup_singleton _, proper.2 lease⟩

/-- Every move leaves the pools and the tasks in balance. -/
theorem step (h : Balanced designs v) {move : Move} (proper : move.Proper) :
    Balanced designs (v.step move) := by
  cases move with
  | wait milliseconds => exact ⟨h.counted, h.claimed, h.proper⟩
  | wakeDue pool =>
    refine ⟨h.counted.still (fun p at_ => ?_) fun p at_ => p.still_wakeDue _, h.claimed, h.proper⟩
    exact (h.counted.sound pool p at_).wakeDue
  | start job =>
    exact h.come h.counted.push h.claimed.push ⟨List.nodup_nil, proper⟩
  | tryLease pool next => exact h.tryLease proper
  | advance env k =>
    dsimp only [Traffic.step]
    unfold Traffic.advance
    split
    · next at_ => exact h.answer at_
    · next at_ => exact h.effect at_ proper
    · exact h
  | look k => exact h.look k
  | leave k => exact h.leave k

theorem run (h : Balanced designs v) {moves : List Move} (proper : ∀ m ∈ moves, m.Proper) :
    Balanced designs (v.run moves) := by
  induction moves generalizing v with
  | nil => exact h
  | cons m rest ih =>
    obtain ⟨first, others⟩ := List.forall_mem_cons.mp proper
    exact ih (h.step first) others

end Balanced

/-- What is done for a request without a break is a sequence of such moves. -/
theorem exists_run_eq {job : Job Reply} (at_ : v.tasks[k]? = some (.going held job)) :
    ∃ n left, v.run (List.replicate n (.advance env k)) =
      { resources := (v.resources.run env k job).1
        tasks := v.tasks.set k (.stopped left (v.resources.run env k job).2) } := by
  induction job generalizing v held with
  | done reply =>
    refine ⟨1, held, ?_⟩
    simp only [List.replicate, run, List.foldl_cons, List.foldl_nil, step, advance, at_]
    rfl
  | ask e rest ih =>
    have first (n : Nat) : v.run (List.replicate (n + 1) (.advance env k)) =
        run { resources := (v.resources.run env k (Job.perform e)).1
              tasks := v.tasks.set k (.resumed held e rest (v.resources.run env k (Job.perform e)).2) }
          (List.replicate n (.advance env k)) := by
      simp only [List.replicate, run, List.foldl_cons, step, advance, at_]
    rw [Resources.run_ask]
    cases done : v.resources.run env k (Job.perform e) with
    | mk more standing =>
      rw [done] at first
      cases standing with
      | asleep due job => exact ⟨1, held, first 0⟩
      | queued pool ticket job => exact ⟨1, held, first 0⟩
      | finished answer =>
        have lt := (List.getElem?_eq_some_iff.mp at_).1
        obtain ⟨n, left, ran⟩ := ih answer (v := ⟨more, _⟩) (List.getElem?_set_self lt)
        refine ⟨n + 1, left, (first n).trans (ran.trans ?_)⟩
        rw [List.set_set]

end Traffic
end Gateway
