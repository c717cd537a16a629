import Mathlib.Logic.Relation
import Gateway.Proofs.Pipeline.Stages

/-! What can be done to an exchange. Stages and plugins edit its request and its response, attach a route,
flag it as failed and mark it as met by the interceptors of the response; nothing takes a flag or a mark
away. -/
namespace Gateway.Exchange
variable {x y : Exchange}

/-- A change of the request or the response. -/
inductive Edits : Exchange → Exchange → Prop where
  | headers (x : Exchange) (h : Headers) : Edits x { x with headers := h }
  | query (x : Exchange) (q : List (String × String)) : Edits x { x with query := q }
  | rebuilt {x y : Exchange} (h : x.rebuildQuery = .ok y) : Edits x y
  | relativePath (x : Exchange) (path : String) : Edits x { x with relativePath := path }
  | account (x : Exchange) (a : Account) : Edits x { x with account := some a }
  | traceValue (x : Exchange) (name value : String) : Edits x (x.addTraceValue name value)
  | traceText (x : Exchange) (text : String) : Edits x { x with traceText := some text }
  | read (x : Exchange) : Edits x x.readContent.1
  | taken (x : Exchange) : Edits x x.takeBody.1
  | released (x : Exchange) : Edits x x.releaseContent
  | response (x : Exchange) (r : Response) : Edits x { x with response := r }

/-- Everything that an exchange lets others do to it. -/
inductive Offers : Exchange → Exchange → Prop where
  | edit {x y : Exchange} (h : x.Edits y) : Offers x y
  | attach (x : Exchange) (info : RouteInfo) : Offers x { x with info := some info }
  | fail (x : Exchange) (f : Failure) : Offers x (x.fail f)
  | mark (x : Exchange) : Offers x { x with intercepted := true }

/-- How far an exchange has come: its route, its flag and its mark. -/
structure SameCourse (x y : Exchange) : Prop where
  info : y.info = x.info
  inError : y.inError = x.inError
  intercepted : y.intercepted = x.intercepted

lemma sameCourse_of_inbound (h : y.inbound = x.inbound) : SameCourse x y :=
  ⟨(congrArg Exchange.info h :), (congrArg Exchange.inError h :), (congrArg Exchange.intercepted h :)⟩

/-- Edits leave how far the exchange has come. -/
theorem Edits.sameCourse (h : x.Edits y) : SameCourse x y := by
  cases h with
  | rebuilt h =>
    rw [rebuildQuery_eq h]
    exact ⟨rfl, rfl, rfl⟩
  | read => exact sameCourse_of_inbound x.inbound_readContent
  | released =>
    unfold releaseContent
    split <;> exact ⟨rfl, rfl, rfl⟩
  | _ => exact ⟨rfl, rfl, rfl⟩

lemma Offers.inError (h : x.Offers y) (flagged : x.inError = true) : y.inError = true := by
  cases h with
  | edit h => exact h.sameCourse.inError.trans flagged
  | fail f => rfl
  | attach _ | mark => exact flagged

lemma Offers.intercepted (h : x.Offers y) (marked : x.intercepted = true) : y.intercepted = true := by
  cases h with
  | edit h => exact h.sameCourse.intercepted.trans marked
  | mark => rfl
  | attach _ | fail _ => exact marked

end Gateway.Exchange
