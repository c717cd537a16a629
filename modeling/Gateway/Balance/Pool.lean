import Gateway.Balance.Rotation
import Gateway.Journal

/-! The hosts of a proxy and the requests that wait for them. A request holds a ticket; a lease is
named by the ticket it was given to. Every operation is one atomic step. -/
namespace Gateway

structure PoolOptions where
  maxConnectionsPerHost : Nat := 5
  /-- Zero lets any number of requests wait. -/
  maxQueueSize : Nat := 0
  /-- Milliseconds before a problem host is tried again, and a waiting request looks again by itself. -/
  retry : Nat := 10000
  deriving DecidableEq, Repr

/-- The delay as hosts are compared with it, in a word of 64 bits. The milliseconds since a pool was made are
taken to fit into one. -/
def PoolOptions.delay (o : PoolOptions) : Nat := o.retry % UInt64.size

/-- What the holder of a lease knows about it. -/
structure Lease where
  ticket : Nat
  authority : String
  basePath : String
  probe : Bool
  deriving DecidableEq

/-- A lease that has not been given back. -/
structure LiveLease where
  ticket : Nat
  host : Nat
  probe : Bool
  /-- Whether an outcome was reported for a probe. -/
  settled : Bool := false
  deriving DecidableEq

/-- A request that waits, and the time at which it looks again by itself. -/
structure Waiter where
  ticket : Nat
  due : Nat
  deriving DecidableEq

/-- A request that was woken and has not looked yet. -/
structure Woken where
  ticket : Nat
  /-- Whether a single wake-up was spent on it, to be passed on if it goes away. -/
  byRelease : Bool
  deriving DecidableEq

structure Pool where
  name : String
  hosts : List Host
  options : PoolOptions := {}
  cursor : Nat := 0
  leases : List LiveLease := []
  /-- Longest waiting first. -/
  waiting : List Waiter := []
  woken : List Woken := []
  /-- A release that found no one waiting is remembered once. -/
  spare : Bool := false
  queued : Nat := 0

/-- How a request fares that asks for a lease. -/
inductive Admittance where
  | granted (lease : Lease)
  | refused (f : Failure)
  | waits
  deriving DecidableEq

namespace Pool

def updateHost (p : Pool) (i : Nat) (f : Host → Host) : Pool :=
  { p with hosts := p.hosts.modify i f }

/-- Hand out a connection of host `i`. -/
def grant (p : Pool) (i : Nat) (h : Host) (probe : Bool) (ticket : Nat) : Pool × Lease :=
  ({ p.updateHost i Host.claim with
      leases := p.leases ++ [{ ticket, host := i, probe }] },
    { ticket, authority := h.authority, basePath := h.basePath, probe })

/-- The first due host with a free connection. -/
def dueHost? (p : Pool) (now : Nat) : Option Nat :=
  p.hosts.findIdx? fun h => h.isDue now p.options.delay && h.available > 0

/-- Lease a connection without waiting: test a due host, else let the rotation choose. -/
def tryLease (p : Pool) (now ticket : Nat) : Pool × Option Lease :=
  match (p.dueHost? now).bind fun i => p.hosts[i]?.map (i, ·) with
  | some (i, h) =>
    let (q, lease) := (p.updateHost i Host.beginProbe).grant i h true ticket
    (q, some lease)
  | none =>
    let (chosen, cursor) := Rotation.next p.hosts p.cursor
    let p := { p with cursor }
    match chosen.bind fun i => p.hosts[i]?.map (i, ·) with
    | some (i, h) =>
      let (q, lease) := p.grant i h false ticket
      (q, some lease)
    | none => (p, none)

/-- Whether waiting could ever yield a lease. -/
def hasUsableHost (p : Pool) (now : Nat) : Bool :=
  p.hosts.any fun h => h.isUsable now p.options.delay

def unavailable (p : Pool) : Failure := .backendUnavailable p.name

def leaveQueue (p : Pool) : Pool := { p with queued := p.queued - 1 }

/-- One look of a queued request. It waits when there is nothing for it yet. -/
def look (p : Pool) (now ticket : Nat) : Pool × Admittance :=
  match p.tryLease now ticket with
  | (p, some lease) => (p.leaveQueue, .granted lease)
  | (p, none) =>
    if p.hasUsableHost now then
      ({ p with waiting := p.waiting ++ [⟨ticket, now + p.options.retry⟩] }, .waits)
    else (p.leaveQueue, .refused p.unavailable)

/-- Begin to wait. A remembered release is spent on a look of its own. -/
def settleIn (p : Pool) (now ticket : Nat) : Pool × Admittance :=
  if p.spare then
    match { p with spare := false }.tryLease now ticket with
    | (p, some lease) => (p.leaveQueue, .granted lease)
    | (p, none) =>
      if p.hasUsableHost now then p.look now ticket
      else (p.leaveQueue, .refused p.unavailable)
  else p.look now ticket

/-- Ask for a lease, joining the queue while every host is busy. -/
def enter (p : Pool) (now ticket : Nat) : Pool × Admittance :=
  match p.tryLease now ticket with
  | (p, some lease) => (p, .granted lease)
  | (p, none) =>
    if !p.hasUsableHost now then (p, .refused p.unavailable)
    else if 0 < p.options.maxQueueSize ∧ p.options.maxQueueSize ≤ p.queued then
      (p, .refused (.queueFull p.name))
    else { p with queued := p.queued + 1 }.settleIn now ticket

/-- Wake the longest waiting request, or remember to. -/
def wakeOne (p : Pool) : Pool :=
  match p.waiting with
  | [] => { p with spare := true }
  | w :: rest => { p with waiting := rest, woken := p.woken ++ [⟨w.ticket, true⟩] }

def wakeAll (p : Pool) : Pool :=
  { p with waiting := [], woken := p.woken ++ p.waiting.map fun w => ⟨w.ticket, false⟩ }

/-- Wake the requests whose time has come. -/
def wakeDue (p : Pool) (now : Nat) : Pool :=
  { p with
    waiting := p.waiting.filter fun w => w.due > now
    woken := p.woken ++ (p.waiting.filter fun w => w.due ≤ now).map fun w => ⟨w.ticket, false⟩ }

/-- Let the request that was woken first look again. -/
def runWoken (p : Pool) (now : Nat) : Option (Pool × Nat × Admittance) :=
  match p.woken with
  | [] => none
  | w :: rest =>
    let (p, outcome) := { p with woken := rest }.settleIn now w.ticket
    some (p, w.ticket, outcome)

/-- Let everyone look again who was woken. No look wakes anyone else, so as many looks will do as
there are requests to look. -/
def serveWoken (now : Nat) : Nat → Pool → Pool × List (Nat × Admittance)
  | 0, p => (p, [])
  | looks + 1, p =>
    match p.runWoken now with
    | none => (p, [])
    | some (p, ticket, outcome) =>
      let (p, more) := serveWoken now looks p
      (p, (ticket, outcome) :: more)

/-- A request goes away while it waits. A wake-up spent on it goes to the next one. -/
def cancel (p : Pool) (ticket : Nat) : Pool :=
  if p.waiting.any (·.ticket = ticket) then
    { p with waiting := p.waiting.filter (·.ticket ≠ ticket) }.leaveQueue
  else match p.woken.find? (·.ticket = ticket) with
    | none => p
    | some w =>
      let p := { p with woken := p.woken.filter (·.ticket ≠ ticket) }.leaveQueue
      if w.byRelease then p.wakeOne else p

def live? (p : Pool) (ticket : Nat) : Option LiveLease := p.leases.find? (·.ticket = ticket)

/-- Give a lease back. A test without an outcome leaves the host due for another one. -/
def release (p : Pool) (ticket : Nat) : Pool × Bool :=
  match p.live? ticket with
  | none => (p, false)
  | some l =>
    let settle := if l.probe && !l.settled then Host.abandonProbe else id
    let p := p.updateHost l.host fun h => (settle h).free
    ({ p with leases := p.leases.filter (·.ticket ≠ ticket) }.wakeOne, true)

def settle (p : Pool) (ticket : Nat) : Pool :=
  { p with leases := p.leases.map fun l => if l.ticket = ticket then { l with settled := true } else l }

/-- Connecting to the leased host failed. All who wait look again whether any host is usable. -/
def reportFailure (p : Pool) (now ticket : Nat) : Pool × List Event × Bool :=
  match (p.live? ticket).bind fun l => p.hosts[l.host]?.map (l.host, ·) with
  | none => (p, [], false)
  | some (i, h) =>
    let alert := if h.isHealthy then [Event.warning "Backend marked as problem"] else []
    (((p.updateHost i (·.markProblem now)).settle ticket).wakeAll,
      alert ++ [.metric (.backendProblem h.authority true)], true)

/-- The exchange with the leased host went through. Only a test changes the host. -/
def reportSuccess (p : Pool) (ticket : Nat) : Pool × List Event × Bool :=
  match (p.live? ticket).bind fun l => p.hosts[l.host]?.map (l, ·) with
  | none => (p, [], false)
  | some (l, h) =>
    if l.probe then
      let news := if h.isHealthy then [] else [Event.metric (.backendProblem h.authority false)]
      ((p.updateHost l.host Host.markHealthy).settle ticket, news, true)
    else (p, [], true)

end Pool
end Gateway
