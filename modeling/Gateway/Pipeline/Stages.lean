import Gateway.Pipeline.Basic

/-! The common stages: route information, content for those who need it, request interceptors,
and the answer to paths that no route covers. -/
namespace Gateway.Stage

/-- Attaches the route's information to the exchange. -/
def routeInfo (info : RouteInfo) : Stage where
  name := "pipeline-info"
  handle := do
    Handler.change fun x => { x with info := some info }
    pure .proceed

def poweredBy : Stage where
  name := "x-powered-by"
  handle := do
    Handler.changeResponseHeaders (·.insertText "x-powered-by" "gatehouse")
    pure .proceed

/-- Gives up buffered request content once the exchange is over. -/
def contentCloser : Stage where
  name := "buffers-closer"
  handle := pure .proceed
  complete := Exchange.change Exchange.releaseContent

/-- Whether the content of an exchange has to be read at a point. -/
def needsContent (point : InterceptPoint) (r : InterceptorRegistry) (terminal : Bool)
    (x : Exchange) : Bool :=
  !(x.inError || x.isContentAvailable) && (terminal || r.requiresContent point x)

/-- Reads the request content when a later stage needs it. -/
def contentReader (point : InterceptPoint) (r : InterceptorRegistry) (terminal : Bool) : Stage where
  name := "content-injector"
  handle := do
    if needsContent point r terminal (← Handler.view) then Handler.readContent
    pure .proceed

/-- Writes changed query parameters back into the request target. -/
def queryRebuilder : Stage where
  name := "query-string-rebuilder"
  handle := do
    Handler.rebuildQuery
    pure .proceed

/-- Run interceptors in order, as long as they apply, succeed and leave the exchange unfailed. -/
def runInterceptors : List Interceptor → Handler Flow
  | [] => pure .proceed
  | i :: rest => do
    if i.resolves (← Handler.view) then
      try i.handle
      catch f =>
        liftM (Job.warn "Request interceptor failed")
        throw f
      if (← Handler.view).inError then pure .stop else runInterceptors rest
    else runInterceptors rest

/-- Runs the request interceptors of one point, unless the exchange has failed. -/
def interceptors (point : InterceptPoint) (r : InterceptorRegistry) : Stage where
  name := match point with
    | .beforeAuth => "request-interceptors-before-auth"
    | _ => "request-interceptors-after-auth"
  handle := do
    if (← Handler.view).inError then pure .proceed else runInterceptors (r.atPoint point)

/-- The end of the pipeline for paths that no route covers. -/
def notManaged : Stage where
  name := "not-managed"
  handle := do
    throw (.notFound (← Handler.view).path)

end Gateway.Stage
