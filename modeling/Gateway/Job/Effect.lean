import Gateway.Balance.Pool
import Gateway.Security.Token

/-! What the handling of one request may ask of the gateway around it, and the kinds of answers
it gets. -/
namespace Gateway

/-- A request as it is sent to a backend. -/
structure OutgoingRequest where
  method : Method
  uri : Uri
  headers : Headers
  body : Body

/-- How an exchange with a backend ends. -/
inductive RoundTrip where
  /-- No connection could be made. -/
  | unreachable
  | broken (reason : String)
  | answered (status : Status) (headers : Headers) (body : Body)

inductive Effect where
  | emit (event : Event)
  | verifyToken (value : String)
  | issueToken (account : Account)
  /-- Lease a connection of a pool, waiting for one if need be. -/
  | lease (pool : Nat)
  | reportFailure (pool ticket : Nat)
  | reportSuccess (pool ticket : Nat)
  | release (guard : Guard)
  | send (lease : Lease) (request : OutgoingRequest)
  | pause (milliseconds : Nat)

/-- The type of the answer to an effect. -/
abbrev Effect.Answer : Effect → Type
  | emit _ => Unit
  | verifyToken _ => Option Account
  | issueToken _ => Token
  | lease _ => Except Failure Lease
  | reportFailure _ _ => Unit
  | reportSuccess _ _ => Unit
  | release _ => Unit
  | send _ _ => RoundTrip
  | pause _ => Unit

end Gateway
