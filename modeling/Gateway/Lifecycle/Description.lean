import Gateway.Config.Encode
import Gateway.Lifecycle.Startup

/-! Why a gateway does not start, laid open as structured answers. -/
namespace Gateway

def ConfigError.toJson : ConfigError → Json
  | unreadable path e =>
    .object [("error", .str "Io"), ("path", .str path), ("io", .str e.text)]
  | malformed => .object [("error", .str "Parse")]
  | proxyEntry index => .object [("error", .str "ProxyEntry"), ("index", .nat index)]
  | unwritable => .object [("error", .str "Serialize")]
  | invalid problems => .object [("error", .str "Validation"),
      ("message", .str (Config.problemsMessage problems)),
      ("errors", .texts (problems.map ConfigProblem.message))]

def TlsError.toJson (e : TlsError) : Json :=
  match e with
  | unreadable path io => .object [("error", .str "Read"), ("path", .str path), ("io", .str io.text)]
  | noCertificate _ => .labelled "NoCertificate" e.message
  | noPrivateKey _ => .labelled "NoPrivateKey" e.message
  | refused => .object [("error", .str "Config")]

def ListenerError.toJson : ListenerError → Json
  | invalidAddress text => .labelled "Address" (Listener.invalidAddressMessage text)
  | inUse _ => .object [("error", .str "Bind"), ("io", .str "AddrInUse")]

def StartupError.toJson : StartupError → Json
  | config e => e.toJson
  | tls e => e.toJson
  | listener e => e.toJson

namespace Config

/-- The configuration, or that it cannot be written. -/
def toJson (c : Config) : Json :=
  match c.encode with
  | some entries => (Toml.Value.table entries).toJson
  | none => ConfigError.unwritable.toJson

/-- The text of the configuration, or that it cannot be written. -/
def textJson (c : Config) : Json :=
  match c.text? with
  | some text => .str text
  | none => ConfigError.unwritable.toJson

end Config
end Gateway
