import Gateway.Pipeline.Forwarding
import Gateway.Pipeline.RequestLog
import Gateway.Pipeline.Stages
import Gateway.Pipeline.Trace
import Gateway.Security.Chain

/-! The pipeline of each kind of route. All share one security chain, one set of interceptors and
the settings of the request log. -/
namespace Gateway

structure Assembly where
  security : SecurityChain := {}
  interceptors : InterceptorRegistry := {}
  log : RequestLogSettings := {}

namespace Assembly

/-- Alerts about the traced headers come with every pipeline that is put together. -/
def alerts (a : Assembly) : List Event := (Trace.headerNames a.log.traceHeaders).2

def trace (a : Assembly) : Stage := Trace.stage (Trace.headerNames a.log.traceHeaders).1

def requestLog (a : Assembly) : Stage := RequestLog.stage a.log.dumpLevel

/-- Content, if an interceptor at the point or what follows needs it, the interceptors, and the
query they may have changed. -/
def intercepted (a : Assembly) (point : InterceptPoint) (contentNeeded : Bool) : List Stage :=
  [Stage.contentReader point a.interceptors contentNeeded, Stage.interceptors point a.interceptors,
    Stage.queryRebuilder]

/-- The stages before a service or a proxy, up to the security stage and with it. -/
def securedHead (a : Assembly) (info : RouteInfo) : List Stage :=
  [Stage.routeInfo info, a.trace, a.requestLog, Stage.contentCloser, Stage.poweredBy] ++
    a.intercepted .beforeAuth false ++ [a.security.stage]

def ofStages (a : Assembly) (stages : List Stage) : Pipeline := ⟨stages, some a.interceptors⟩

def service (a : Assembly) (info : RouteInfo) (terminal : Stage) (contentNeeded : Bool) : Pipeline :=
  a.ofStages (a.securedHead info ++ a.intercepted .afterAuth contentNeeded ++ [terminal])

def proxy (a : Assembly) (info : RouteInfo) (terminal : Stage) : Pipeline :=
  a.ofStages (a.securedHead info ++ [Forwarding.credentialsStage, Forwarding.stage] ++
    a.intercepted .afterAuth false ++ [terminal])

/-- Files are served to everyone, without a look at the request content. -/
def static (a : Assembly) (info : RouteInfo) (terminal : Stage) : Pipeline :=
  a.ofStages [Stage.routeInfo info, a.trace, a.requestLog, Stage.poweredBy, terminal]

/-- For paths that no route covers. -/
def notManaged (a : Assembly) : Pipeline :=
  a.ofStages [a.trace, a.requestLog, Stage.poweredBy, Stage.notManaged]

end Assembly
end Gateway
