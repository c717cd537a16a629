import Gateway.Job.Handler
import Gateway.Plugin.Basic

/-! Interceptors look at exchanges at one of three points and may change them. -/
namespace Gateway

inductive InterceptPoint where
  | beforeAuth
  | afterAuth
  | response
  deriving DecidableEq, Repr

structure Interceptor where
  point : InterceptPoint := .response
  /-- Whether the content has to be in memory before the interceptor runs. -/
  requiresContent : Bool := false
  /-- Whether the interceptor applies to an exchange. -/
  resolves : Exchange → Bool := fun _ => true
  handle : Handler Unit

/-- Enabled interceptors in the order of their registration. -/
structure InterceptorRegistry where
  plugins : List (Plugin Interceptor) := []

namespace InterceptorRegistry

def ofPlugins (plugins : List (Plugin Interceptor)) : InterceptorRegistry :=
  ⟨plugins.filter (·.enabled)⟩

def atPoint (r : InterceptorRegistry) (point : InterceptPoint) : List Interceptor :=
  (r.plugins.map (·.behaviour)).filter (·.point = point)

/-- Whether an interceptor at `point` that applies needs the content. -/
def requiresContent (r : InterceptorRegistry) (point : InterceptPoint) (x : Exchange) : Bool :=
  (r.atPoint point).any fun i => i.requiresContent && i.resolves x

def size (r : InterceptorRegistry) : Nat := r.plugins.length

def isEmpty (r : InterceptorRegistry) : Bool := r.plugins.isEmpty

end InterceptorRegistry
end Gateway
