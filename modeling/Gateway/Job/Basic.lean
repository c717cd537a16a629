import Gateway.Job.Effect

/-! Jobs: the handling of one request as a tree of effects, each followed by what to do with its
answer. Between two effects other requests may be served. -/
namespace Gateway

inductive Job (α : Type) : Type where
  | done (a : α)
  | ask (e : Effect) (resume : e.Answer → Job α)

namespace Job

def bind {α β : Type} : Job α → (α → Job β) → Job β
  | done a, f => f a
  | ask e k, f => ask e fun r => (k r).bind f

instance : Monad Job where
  pure := done
  bind := bind

@[simp] theorem pure_eq {α : Type} (a : α) : (pure a : Job α) = done a := rfl

@[simp] theorem done_bind {α β : Type} (a : α) (f : α → Job β) : (done a >>= f) = f a := rfl

@[simp] theorem ask_bind {α β : Type} (e : Effect) (k : e.Answer → Job α) (f : α → Job β) :
    (ask e k >>= f) = ask e fun r => k r >>= f := rfl

theorem bind_done {α : Type} (j : Job α) : (j >>= done) = j := by
  induction j with
  | done a => rfl
  | ask e k ih => simp only [ask_bind, ih]

theorem bind_assoc {α β γ : Type} (j : Job α) (f : α → Job β) (g : β → Job γ) :
    (j >>= f >>= g) = j >>= fun a => f a >>= g := by
  induction j with
  | done a => rfl
  | ask e k ih => simp only [ask_bind, ih]

instance : LawfulMonad Job := LawfulMonad.mk' Job bind_done (fun _ _ => rfl) bind_assoc

def perform (e : Effect) : Job e.Answer := ask e done

def emit (event : Event) : Job Unit := perform (.emit event)

def warn (text : String) : Job Unit := emit (.warning text)

def alarm (text : String) : Job Unit := emit (.error text)

/-- A job that performs some effects in order and answers with its result: one branch of the tree,
with the answers that were given along it. -/
inductive Run {α : Type} : Job α → List ((e : Effect) × e.Answer) → α → Prop where
  | done (a : α) : Run (.done a) [] a
  | ask {e : Effect} {k : e.Answer → Job α} {t : List ((e : Effect) × e.Answer)} {a : α}
      (r : e.Answer) (h : Run (k r) t a) : Run (.ask e k) (⟨e, r⟩ :: t) a

end Job
end Gateway
