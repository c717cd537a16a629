import Gateway.Balance.Description
import Gateway.Balance.Pool
import Gateway.CommandLine
import Gateway.Config.Description
import Gateway.Exchange.Description
import Gateway.Lifecycle.Description
import Gateway.Lifecycle.Routes
import Gateway.Lifecycle.Shutdown
import Gateway.Lifecycle.Startup
import Gateway.LogFilter
import Gateway.Main
import Gateway.Number.Json
import Gateway.Plugin.Description
import Gateway.Proofs.Balance.Acquisition
import Gateway.Proofs.Balance.Alternation
import Gateway.Proofs.Balance.Gauge
import Gateway.Proofs.Balance.Probes
import Gateway.Proofs.Balance.Waiting
import Gateway.Proofs.Config.RoundTrip
import Gateway.Proofs.Exchange.Buffers
import Gateway.Proofs.Exchange.Framing
import Gateway.Proofs.Exchange.Handover
import Gateway.Proofs.Exchange.Rebuilding
import Gateway.Proofs.Http.HopByHop
import Gateway.Proofs.Lifecycle.Addresses
import Gateway.Proofs.Lifecycle.Signalling
import Gateway.Proofs.Pipeline.Challenges
import Gateway.Proofs.Pipeline.Content
import Gateway.Proofs.Pipeline.Course
import Gateway.Proofs.Pipeline.Hops
import Gateway.Proofs.Pipeline.Idle
import Gateway.Proofs.Pipeline.Reception
import Gateway.Proofs.Pipeline.Secrecy
import Gateway.Proofs.Plugin.Ownership
import Gateway.Proofs.Plugin.Rules
import Gateway.Proofs.Proxy.Answers
import Gateway.Proofs.Proxy.Relaying
import Gateway.Proofs.Proxy.Target
import Gateway.Proofs.Route.Isolation
import Gateway.Proofs.Route.Resolution
import Gateway.Proofs.Security.Decision
import Gateway.Proofs.Security.Logins
import Gateway.Proofs.Security.Mechanisms
import Gateway.Proofs.Security.Permissions
import Gateway.Proofs.Server.Connections
import Gateway.Proofs.Server.Draining
import Gateway.Proofs.Server.Operations
import Gateway.Proofs.Session.Ids
import Gateway.Proofs.Site.Redirects
import Gateway.Proofs.Site.Welcome
import Gateway.Route.Description
import Gateway.Server.Clock
