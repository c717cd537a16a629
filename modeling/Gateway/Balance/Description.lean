import Gateway.Balance.Pool
import Gateway.Exchange.Description
import Gateway.Text.Quoted

/-! Hosts, leases and refused backends laid open as structured answers. -/
namespace Gateway

def BackendError.toJson (e : BackendError) : Json :=
  .labelled (match e with
    | unsupportedScheme _ => "UnsupportedScheme"
    | missingAuthority _ => "MissingAuthority") e.message

/-- State, connections in use and free connections. -/
def Host.toJson (h : Host) : Json :=
  .arr [.str h.state.text, .nat h.active, .nat h.available]

/-- The lease in one line. -/
def Lease.summary (l : Lease) : String :=
  "HostLease \x7b host: " ++ Text.quoted l.authority ++ ", probe: " ++
    (if l.probe then "true" else "false") ++ " \x7d"

def Lease.toJson (l : Lease) : Json :=
  .object [("host", .str l.authority), ("probe", .bool l.probe), ("debug", .str l.summary)]

/-- What a request gets, once it does not wait any more. -/
def Admittance.toJson? : Admittance → Option Json
  | granted l => some l.toJson
  | refused f => some f.toJson
  | waits => none

def Pool.hostsJson (p : Pool) : Json := .arr (p.hosts.map Host.toJson)

end Gateway
