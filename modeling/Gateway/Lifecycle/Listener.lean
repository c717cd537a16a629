import Gateway.Config.Schema
import Gateway.Address

/-! Listeners: the addresses the gateway accepts connections on. -/
namespace Gateway

/-- Why a listener cannot be set up. -/
inductive ListenerError where
  | invalidAddress (text : String)
  | inUse (address : SocketAddress)
  deriving DecidableEq

namespace Listener

def invalidAddressMessage (text : String) : String :=
  "invalid address " ++ text ++ ": invalid socket address syntax"

def parseAddress (text : String) : Except ListenerError SocketAddress :=
  match SocketAddress.parse? text with
  | some a => .ok a
  | none => .error (.invalidAddress text)

/-- Set up a listener, if it is wanted. -/
def bind (enabled : Bool) (address : String) (isTaken : SocketAddress → Bool) :
    Except ListenerError (Option SocketAddress) :=
  if !enabled then .ok none
  else do
    let a ← parseAddress address
    if isTaken a then .error (.inUse a) else .ok (some a)

def bindHttp (l : Config.Listener) (isTaken : SocketAddress → Bool) :
    Except ListenerError (Option SocketAddress) := bind l.httpEnabled l.httpAddress isTaken

def bindHttps (l : Config.Listener) (isTaken : SocketAddress → Bool) :
    Except ListenerError (Option SocketAddress) := bind l.httpsEnabled l.httpsAddress isTaken

/-- Whether an address is taken by a listener. The system chooses a free number for zero. -/
def occupies (bound : Option SocketAddress) (a : SocketAddress) : Bool :=
  a.number ≠ 0 && bound = some a

end Listener
end Gateway
