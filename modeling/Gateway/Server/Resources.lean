import Gateway.Job.Basic

/-! What requests share while they are handled: clock, pools, tokens and the journal. A job runs on
them until it is done or has to wait. -/
namespace Gateway

/-- What the gateway finds around itself. -/
structure Surroundings where
  /-- Random token values, all different. -/
  token : Nat → String
  /-- Random request ids, all different. -/
  requestId : Nat → String
  /-- Time of day in seconds; tokens end by it. -/
  timeOfDay : Nat := 0
  /-- How backends answer. -/
  network : Lease → OutgoingRequest → RoundTrip

/-- A ticket of a pool, and whoever took it. -/
structure Claim where
  owner : Nat
  pool : Nat
  ticket : Nat
  deriving DecidableEq, Repr

structure Resources where
  /-- Milliseconds. -/
  now : Nat := 0
  pools : List Pool := []
  tokens : TokenStore := { ttl := 0 }
  /-- How many token values are used up. -/
  tokensDrawn : Nat := 0
  ticketsDrawn : Nat := 0
  claims : List Claim := []
  /-- In the order in which they happened. -/
  events : List Event := []

/-- Where a job stands that has run as far as it can. -/
inductive Standing (α : Type) where
  | finished (a : α)
  | asleep (due : Nat) (rest : Job α)
  | queued (pool ticket : Nat) (rest : Except Failure Lease → Job α)

namespace Resources

def note (r : Resources) (events : List Event) : Resources :=
  { r with events := r.events ++ events }

def updatePool (r : Resources) (i : Nat) (f : Pool → Pool) : Resources :=
  { r with pools := r.pools.modify i f }

/-- Change a pool by a step that is worth noting. -/
def report (r : Resources) (i : Nat) (f : Pool → Pool × List Event × Bool) : Resources :=
  match r.pools[i]? with
  | none => r
  | some p =>
    let (p, events, _) := f p
    { r with pools := r.pools.set i p }.note events

def release (r : Resources) : Guard → Resources
  | .admission => r
  | .lease pool ticket => r.updatePool pool fun p => (p.release ticket).1

def releaseAll (r : Resources) (guards : List Guard) : Resources := guards.foldl release r

def verifyToken (r : Resources) (env : Surroundings) (value : String) :
    Resources × Option Account :=
  let (tokens, account) := r.tokens.verify env.timeOfDay value
  ({ r with tokens }, account)

/-- A token value is used up only when the account has no token yet. -/
def issueToken (r : Resources) (env : Surroundings) (a : Account) : Resources × Token :=
  let fresh := env.token r.tokensDrawn
  let (tokens, token) := r.tokens.issue env.timeOfDay fresh a
  ({ r with
      tokens
      tokensDrawn := if token.value = fresh then r.tokensDrawn + 1 else r.tokensDrawn }, token)

/-- Ask a pool for a lease under a new ticket. -/
def lease (r : Resources) (owner pool : Nat) : Resources × Nat × Admittance :=
  let ticket := r.ticketsDrawn
  let r := { r with ticketsDrawn := ticket + 1, claims := r.claims ++ [⟨owner, pool, ticket⟩] }
  match r.pools[pool]? with
  | none => (r, ticket, .refused (.internal "no such pool"))
  | some p =>
    let (p, outcome) := p.enter r.now ticket
    ({ r with pools := r.pools.set pool p }, ticket, outcome)

/-- Run a job for its owner until it is done or has to wait. -/
def run {α : Type} (env : Surroundings) (owner : Nat) : Job α → Resources → Resources × Standing α
  | .done a, r => (r, .finished a)
  | .ask (.emit event) k, r => run env owner (k ()) (r.note [event])
  | .ask (.verifyToken value) k, r =>
    let (r, account) := r.verifyToken env value
    run env owner (k account) r
  | .ask (.issueToken a) k, r =>
    let (r, token) := r.issueToken env a
    run env owner (k token) r
  | .ask (.lease pool) k, r =>
    match r.lease owner pool with
    | (r, _, .granted lease) => run env owner (k (.ok lease)) r
    | (r, _, .refused f) => run env owner (k (.error f)) r
    | (r, ticket, .waits) => (r, .queued pool ticket k)
  | .ask (.reportFailure pool ticket) k, r =>
    run env owner (k ()) (r.report pool (·.reportFailure r.now ticket))
  | .ask (.reportSuccess pool ticket) k, r =>
    run env owner (k ()) (r.report pool (·.reportSuccess ticket))
  | .ask (.release g) k, r => run env owner (k ()) (r.release g)
  | .ask (.send lease request) k, r => run env owner (k (env.network lease request)) r
  | .ask (.pause ms) k, r =>
    if ms = 0 then run env owner (k ()) r else (r, .asleep (r.now + ms) (k ()))

/-- Run a job that has the gateway to itself: time passes while it sleeps. A job that waits for a
lease is not finished. -/
def runAlone {α : Type} (env : Surroundings) : Nat → Job α → Resources → Resources × Option α
  | 0, _, r => (r, none)
  | steps + 1, j, r =>
    match r.run env 0 j with
    | (r, .finished a) => (r, some a)
    | (r, .asleep due rest) => runAlone env steps rest { r with now := due }
    | (r, .queued _ _ _) => (r, none)

/-- Let go of all tickets of someone who goes away, whether waiting or leased. -/
def abandon (r : Resources) (owner : Nat) : Resources :=
  (r.claims.filter (·.owner = owner)).foldl
    (fun r c => r.updatePool c.pool fun p => ((p.cancel c.ticket).release c.ticket).1)
    { r with claims := r.claims.filter (·.owner ≠ owner) }

end Resources
end Gateway
