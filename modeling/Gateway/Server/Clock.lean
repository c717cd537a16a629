import Gateway.Server.Basic

/-! Time on a server. At each moment the requests out of time are given up first; then sleepers go
on, and pools wake those who waited long enough. -/
namespace Gateway.Server

/-- Let the request go on that a pool woke first. -/
def wakeNext (env : Surroundings) (s : Server) : Option Server := do
  let i ← s.resources.pools.findIdx? (!·.woken.isEmpty)
  let pool ← s.resources.pools[i]?
  let (pool, ticket, outcome) ← pool.runWoken s.resources.now
  let s := { s with resources := s.resources.updatePool i fun _ => pool }
  match s.visits.find? (·.waitsFor i ticket) with
  | none => pure s
  | some v =>
    match v.standing, outcome with
    | .queued _ _ rest, .granted lease => pure (s.proceed env v (rest (.ok lease)))
    | .queued _ _ rest, .refused f => pure (s.proceed env v (rest (.error f)))
    | _, _ => pure s

/-- Let everyone go on who was woken. -/
def settle (env : Surroundings) : Nat → Server → Server
  | 0, s => s
  | steps + 1, s =>
    match s.wakeNext env with
    | some s => settle env steps s
    | none => s

/-- More steps than any handling of requests takes between two moments. -/
def maxSteps : Nat := 100000

def settled (env : Surroundings) (s : Server) : Server := s.settle env maxSteps

def giveUpLate (s : Server) : Server :=
  (s.visits.filter fun v => !v.isFinished && v.deadline ≤ s.resources.now).foldl giveUp s

def wakeSleeper (env : Surroundings) (s : Server) (v : Visit) : Server :=
  match v.standing with
  | .asleep due rest => if due ≤ s.resources.now then s.proceed env v rest else s
  | _ => s

def wakeSleepers (env : Surroundings) (s : Server) : Server :=
  s.visits.foldl (wakeSleeper env) s

def wakeWaiting (s : Server) : Server :=
  { s with resources :=
    { s.resources with pools := s.resources.pools.map (·.wakeDue s.resources.now) } }

/-- Everything that happens at a moment. -/
def moveTo (env : Surroundings) (s : Server) (time : Nat) : Server :=
  let s := { s with resources := { s.resources with now := time } }
  (wakeWaiting (wakeSleepers env s.giveUpLate)).settled env

def advance (env : Surroundings) (s : Server) (ms : Nat) : Server :=
  s.moveTo env (s.resources.now + ms)

/-- The moments at which something is going to happen. -/
def moments (s : Server) : List Nat :=
  (s.visits.filter (!·.isFinished)).flatMap (fun v =>
    v.deadline :: match v.standing with
      | .asleep due _ => [due]
      | _ => []) ++
  s.resources.pools.flatMap fun p => p.waiting.map (·.due)

/-- The next of them, which may be now. -/
def nextMoment? (s : Server) : Option Nat := s.moments.min?.map (max · s.resources.now)

/-- Let time pass until a request is answered. -/
def await (env : Surroundings) (id : Nat) : Nat → Server → Server
  | 0, s => s
  | steps + 1, s =>
    if (s.reply? id).isSome then s
    else match s.nextMoment? with
      | some t => await env id steps (s.moveTo env t)
      | none => s

/-- Let time pass until no request is in flight, at most until `due`. -/
def drainUntil (env : Surroundings) (due : Nat) : Nat → Server → Server × Bool
  | 0, s => (s, s.gate.inFlight = 0)
  | steps + 1, s =>
    match s.gate.news? s.resources.now (.drain due) with
    | some news => (s, news = .drained true)
    | none => drainUntil env due steps (s.moveTo env (min due (s.nextMoment?.getD due)))

def drain (env : Surroundings) (s : Server) (ms : Nat) : Server × Bool :=
  drainUntil env (s.resources.now + ms) maxSteps s

/-- Take a request in, and let everyone run until they wait. -/
def accept (env : Surroundings) (s : Server) (r : Request) : Server × Nat :=
  let (s, id) := s.arrive env r
  (s.settled env, id)

/-- Take a request in, and let time pass until it is answered. -/
def serve (env : Surroundings) (s : Server) (r : Request) : Server × Nat :=
  let (s, id) := s.accept env r
  (s.await env id maxSteps, id)

/-- The answer to a request is read, or the request is called off by its sender. -/
def leave (env : Surroundings) (s : Server) (id : Nat) : Server :=
  match s.visit? id with
  | some v => (s.dismiss v).settled env
  | none => s

end Gateway.Server
