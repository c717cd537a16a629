import Gateway.Config.Load
import Gateway.Lifecycle.Listener
import Gateway.Tls.Material

/-! The way to a gateway that accepts connections. The first fault ends it, and nothing is
listened on before the configuration and the certificate are known to be good. -/
namespace Gateway

inductive StartupError where
  | config (e : ConfigError)
  | tls (e : TlsError)
  | listener (e : ListenerError)
  deriving DecidableEq

/-- The addresses of a gateway that has started. -/
structure Listening where
  http : Option SocketAddress
  https : Option SocketAddress
  deriving DecidableEq

namespace Config

/-- Check the certificate of the encrypted listener, if there is to be one. -/
def checkTls (c : Config) (files : FileTree) : Except StartupError Unit :=
  if !c.listener.httpsEnabled then .ok ()
  else match c.listener.tls with
    | none => .error (.config (.invalid [.missingTls]))
    | some t => (Gateway.Tls.load files t).mapError .tls

/-- Set up both listeners. -/
def listen (c : Config) (isTaken : SocketAddress → Bool) : Except ListenerError Listening := do
  let http ← Listener.bindHttp c.listener isTaken
  let https ← Listener.bindHttps c.listener fun a => isTaken a || Listener.occupies http a
  pure ⟨http, https⟩

/-- Start a gateway. -/
def start (c : Config) (files : FileTree) (isTaken : SocketAddress → Bool) :
    Except StartupError Listening := do
  c.validate.mapError .config
  c.checkTls files
  (c.listen isTaken).mapError .listener

end Config
end Gateway
