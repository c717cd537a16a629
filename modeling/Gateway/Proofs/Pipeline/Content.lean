import Gateway.Proofs.Exchange.Reading
import Gateway.Proofs.Pipeline.Steps
import Gateway.Proofs.Security.Chain

/-! Content on its way to those who require it. A content reader stands before the interceptors of each point;
where it has to read, the content is there as a whole behind it, or the request ends there. -/
namespace Gateway

namespace Exchange
variable {x y : Exchange} {body : Body} {limits : ContentLimits}

/-- The content, read or not, and what it is limited to. -/
def hold (x : Exchange) : RequestContent × ContentLimits := (x.content, x.limits)

/-- The content of the body is still to be read, or it is in memory as a whole. -/
def Holds (x : Exchange) (limits : ContentLimits) (body : Body) : Prop :=
  x.hold = (.pending body, limits) ∨ x.HasWhole limits body

lemma HasWhole.congr (h : x.HasWhole limits body) (same : y.hold = x.hold) : y.HasWhole limits body := by
  obtain ⟨content, kept⟩ := Prod.mk.inj same
  refine ⟨kept.trans h.limited, ?_, h.within, h.unbroken⟩
  rw [content?, content]
  exact h.content

lemma Holds.congr (h : x.Holds limits body) (same : y.hold = x.hold) : y.Holds limits body :=
  h.imp same.trans (·.congr same)

lemma isContentAvailable_eq (x : Exchange) : x.isContentAvailable = x.content?.isSome := by
  unfold isContentAvailable content?
  split <;> rfl

lemma HasWhole.isContentAvailable (h : x.HasWhole limits body) : x.isContentAvailable = true := by
  rw [isContentAvailable_eq, h.content]
  rfl

lemma hold_rebuildQuery (h : x.rebuildQuery = .ok y) : y.hold = x.hold := by
  rw [rebuildQuery_eq h]
  rfl

end Exchange

namespace Stage
variable {point : InterceptPoint} {r : InterceptorRegistry} {terminal : Bool} {x y : Exchange} {t : Trace}
  {o : Except Failure Flow} {body : Body} {limits : ContentLimits} {f : Failure}

end Stage

namespace Walk
variable {list : List Interceptor} {i : Interceptor} {x y z : Exchange} {t : Trace}
  {taken : List (Step × Exchange)} {r : Except Failure Flow}

lemma mem_of_taken (h : Walk (list.map .interceptor) x t taken r y) (mem : (.interceptor i, z) ∈ taken) :
    i ∈ list := by
  obtain ⟨j, registered, same⟩ := List.mem_map.mp (h.sublist.subset (List.mem_map_of_mem mem))
  obtain rfl := Step.interceptor.inj same
  exact registered

end Walk

/-- The interceptors of a point stand behind the content reader of the point. -/
def Assembly.Frames (a : Assembly) (parts : List Part) : Prop :=
  ∀ before point after, parts = before ++ .interceptors point :: after →
    ∃ front content, before = front ++ [.single (Stage.contentReader point a.interceptors content)]

namespace Assembly
variable {a : Assembly} {b : Blueprint} {parts : List Part} {x y z : Exchange} {t : Trace} {body : Body}
  {limits : ContentLimits} {point : InterceptPoint} {content : Bool} {i : Interceptor}

lemma Frames.single (h : a.Frames parts) (s : Stage) : a.Frames (.single s :: parts) := by
  intro before point after split
  match before with
  | [] => cases split
  | _ :: before =>
    obtain ⟨front, content, rfl⟩ := h before point after (List.cons.inj split).2
    exact ⟨_ :: front, content, rfl⟩

lemma Frames.around (h : a.Frames parts) (point : InterceptPoint) (content : Bool) :
    a.Frames (a.around point content ++ parts) := by
  intro before other after split
  match before with
  | [] => cases split
  | [_] =>
    -- The interceptors of this point, behind the reader that is put there for them.
    obtain ⟨rfl, tail⟩ := List.cons.inj split
    obtain rfl := Part.interceptors.inj (List.cons.inj tail).1
    exact ⟨[], content, rfl⟩
  | _ :: _ :: before =>
    -- Any other interceptors stand behind the query rebuilder of this point.
    have behind := (List.cons.inj (List.cons.inj split).2).2
    obtain ⟨front, terminal, rfl⟩ := h.single Stage.queryRebuilder before other after behind
    exact ⟨_ :: _ :: front, terminal, rfl⟩

/-- On the run on `x`, the content reader of a point is handed `y` and proceeds, and then the interceptor of
the point is begun on `z`. -/
def Meets (a : Assembly) (b : Blueprint) (x y : Exchange) (i : Interceptor) (z : Exchange) : Prop :=
  ∃ content t u v m taken o n,
    (a.build b).Hands x t (Stage.contentReader i.point a.interceptors content) y ∧
      (Stage.contentReader i.point a.interceptors content).handle.Runs y u (.ok .proceed) m ∧
      Walk ((a.interceptors.atPoint i.point).map .interceptor) m v taken o n ∧ (.interceptor i, z) ∈ taken

lemma Meets.registered (h : a.Meets b x y i z) : i ∈ a.interceptors.atPoint i.point := by
  obtain ⟨content, t, u, v, m, taken, o, n, hands, read, walk, mem⟩ := h
  exact walk.mem_of_taken mem

section Held
variable (interceptors : ∀ point, ∀ i ∈ a.interceptors.atPoint point,
    i.handle.Obeys (.keeping Exchange.hold))
  (mechanisms : ∀ m ∈ a.security.mechanisms, m.authenticate.Obeys (.keeping Exchange.hold) ∧
    m.authenticate.Obeys (.keeping (·.inError)))

end Held

end Assembly
end Gateway
