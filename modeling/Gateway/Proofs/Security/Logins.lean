import Mathlib.Data.List.Perm.Subperm
import Mathlib.Logic.Relation
import Gateway.Proofs.Security.Tokens

/-! Calls to a token store that run side by side. Between two steps of a call any others may take theirs,
so a call can bind its token in place of one it never saw. -/
namespace Gateway

/-- A call in progress, by the step it takes next. -/
inductive TokenTask
  | look (e : TokenEntry)
  | renew (e : TokenEntry) (value : String)
  | discard (e : TokenEntry) (value : String)
  | store (e : TokenEntry)
  | bind (e : TokenEntry) (value : String)
  | read (value : String)
  | judge (value : String) (found : TokenEntry)
  | expire (value : String) (found : TokenEntry)
  | release (value : String) (found : TokenEntry)

inductive TokenAnswer
  | token (t : Token)
  | account (a : Option Account)

namespace TokenTask

/-- One step of a call, at most one operation on one of the two lists. -/
def advance (s : TokenStore) (now : Nat) (fresh : String) :
    TokenTask → TokenStore × (TokenTask ⊕ TokenAnswer)
  | look e =>
    match s.valueOf? e.account.id with
    | none => (s, .inl (store e))
    | some value => (s, .inl (renew e value))
  | renew e value =>
    match s.refresh now value e with
    | some s => (s, .inr (.token ⟨value, e.validUntil⟩))
    | none => (s, .inl (discard e value))
  | discard e value => (s.removeToken value, .inl (store e))
  | store e => (s.insertToken fresh e, .inl (bind e fresh))
  | bind e value => (s.bindAccount e.account.id value, .inr (.token ⟨value, e.validUntil⟩))
  | read value =>
    match s.entry? value with
    | none => (s, .inr (.account none))
    | some found => (s, .inl (judge value found))
  | judge value found =>
    if found.validUntil ≤ now then (s, .inl (expire value found))
    else (s, .inr (.account (some found.account)))
  | expire value found => (s.removeToken value, .inl (release value found))
  | release value found => (s.unbindAccount found.account.id value, .inr (.account none))

/-- A call that is not disturbed. -/
inductive Alone (now : Nat) (fresh : String) :
    TokenStore → TokenTask → TokenStore → TokenAnswer → Prop
  | done {s s' : TokenStore} {task : TokenTask} {answer : TokenAnswer}
      (step : task.advance s now fresh = (s', .inr answer)) : Alone now fresh s task s' answer
  | more {s s' s'' : TokenStore} {task next : TokenTask} {answer : TokenAnswer}
      (step : task.advance s now fresh = (s', .inl next)) (rest : Alone now fresh s' next s'' answer) :
      Alone now fresh s task s'' answer

variable {s : TokenStore} {now : Nat} {value fresh : String} {account : Account}

lemma alone_store (e : TokenEntry) :
    Alone now fresh s (store e) (s.grant fresh e) (.token ⟨fresh, e.validUntil⟩) :=
  .more rfl (.done rfl)

/-- Undisturbed, the steps of the two calls are what the calls do. -/
lemma alone_issue : Alone now fresh s (look ⟨account, now + s.ttl⟩) (s.issue now fresh account).1
    (.token (s.issue now fresh account).2) := by
  unfold TokenStore.issue
  cases bound : s.valueOf? account.id with
  | none => exact .more (by simp only [advance, bound]) (alone_store _)
  | some value =>
    refine .more (by simp only [advance, bound]; rfl) ?_
    cases renewed : s.refresh now value ⟨account, now + s.ttl⟩ with
    | some s' =>
      simp only [renewed]
      exact .done (by simp only [advance, renewed])
    | none =>
      simp only [renewed]
      exact .more (by simp only [advance, renewed]; rfl) (.more rfl (alone_store _))

lemma alone_verify : Alone now fresh s (read value) (s.verify now value).1
    (.account (s.verify now value).2) := by
  unfold TokenStore.verify
  cases found : s.entry? value with
  | none => exact .done (by simp only [advance, found])
  | some e =>
    refine .more (by simp only [advance, found]; rfl) ?_
    by_cases expired : e.validUntil ≤ now
    · simp only [expired, if_true]
      exact .more (by simp only [advance, expired, if_true]; rfl) (.more rfl (.done rfl))
    · simp only [expired, if_false]
      exact .done (by simp only [advance, expired, if_false])

/-- It issues a token to an account. -/
def issuesTo (id : String) : TokenTask → Bool
  | look e | renew e _ | discard e _ | store e | bind e _ => e.account.id = id
  | read _ | judge _ _ | expire _ _ | release _ _ => false

/-- The value a step draws. -/
def draws (fresh : String) : TokenTask → List String
  | store _ => [fresh]
  | look _ | renew _ _ | discard _ _ | bind _ _ | read _ | judge _ _ | expire _ _ | release _ _ => []

/-- The stored token a step takes the account from. -/
def overtakes (s : TokenStore) : TokenTask → List String
  | bind e value => (s.valueOf? e.account.id).toList.filter fun old =>
      old ≠ value ∧ (s.entry? old).isSome
  | look _ | renew _ _ | discard _ _ | store _ | read _ | judge _ _ | expire _ _ | release _ _ => []

end TokenTask

/-- A store with the calls in progress. It remembers the values drawn so far, the accounts that two calls
issued to at once and the tokens that were still stored when another took their place. -/
structure Logins where
  store : TokenStore
  tasks : List TokenTask := []
  drawn : List String := []
  crowded : List String := []
  overtaken : List String := []

namespace Logins

/-- A call begins, or one of those in progress takes a step. Values drawn are new. -/
inductive Step (l : Logins) : Logins → Prop
  | issue (now : Nat) (account : Account) : Step l
      { l with
        tasks := l.tasks ++ [.look ⟨account, now + l.store.ttl⟩]
        crowded :=
          if l.tasks.any (TokenTask.issuesTo account.id) then account.id :: l.crowded else l.crowded }
  | verify (value : String) : Step l { l with tasks := l.tasks ++ [.read value] }
  | go {before after : List TokenTask} {task : TokenTask} (now : Nat) (fresh : String)
      (running : l.tasks = before ++ task :: after) (new : fresh ∉ l.drawn) : Step l
      { l with
        store := (task.advance l.store now fresh).1
        tasks := before ++ (task.advance l.store now fresh).2.getLeft?.toList ++ after
        drawn := task.draws fresh ++ l.drawn
        overtaken := task.overtakes l.store ++ l.overtaken }

/-- What comes of an empty store. -/
def Reached (ttl : Nat) : Logins → Prop := Relation.ReflTransGen Step { store := { ttl } }

end Logins

/-- The account of a stored token. -/
def TokenStore.owner? (s : TokenStore) (value : String) : Option String :=
  (s.entry? value).map (·.account.id)

namespace Logins
variable {l : Logins} {before after : List TokenTask} {task : TokenTask} {s : TokenStore}
  {value id fresh : String} {e : TokenEntry}

lemma owner?_insertToken (w : String) :
    (s.insertToken value e).owner? w = if w = value then some e.account.id else s.owner? w := by
  rw [TokenStore.owner?, TokenStore.entry?_insertToken]
  split <;> rfl

lemma owner?_removeToken (w : String) :
    (s.removeToken value).owner? w = if w = value then none else s.owner? w := by
  rw [TokenStore.owner?, TokenStore.entry?_removeToken]
  split <;> rfl

/-- What a call in progress relies on. While it is the only one to issue to its account, no token of the
account is stored besides the one it knows of. -/
def Agrees (l : Logins) : TokenTask → Prop
  | .look _ | .read _ => True
  | .renew e value | .discard e value | .bind e value =>
    value ∈ l.drawn ∧ (∀ id, l.store.owner? value = some id → id = e.account.id) ∧
      (e.account.id ∉ l.crowded → ∀ w, l.store.owner? w = some e.account.id → w = value)
  | .store e => e.account.id ∉ l.crowded → ∀ w, l.store.owner? w ≠ some e.account.id
  | .judge value _ | .expire value _ => value ∈ l.drawn
  | .release value _ => value ∈ l.drawn ∧ l.store.owner? value = none

/-- A stored token is the one of its account, is about to become it, or was overtaken by a call that ran
beside another one for the account. -/
structure Sound (l : Logins) : Prop where
  names : (l.store.tokens.map Prod.fst).Nodup
  drawn : ∀ value id, l.store.owner? value = some id → value ∈ l.drawn
  bound : ∀ id value, l.store.valueOf? id = some value →
    value ∈ l.drawn ∧ ∀ other, l.store.owner? value = some other → other = id
  current : ∀ value id, l.store.owner? value = some id → l.store.valueOf? id = some value ∨
    (∃ e, .bind e value ∈ l.tasks) ∨ value ∈ l.overtaken ∧ id ∈ l.crowded
  apart : ∀ id ∉ l.crowded, l.tasks.countP (TokenTask.issuesTo id) ≤ 1
  agrees : ∀ task ∈ l.tasks, l.Agrees task

lemma Agrees.mono {k : Logins} (h : l.Agrees task) (drawn : l.drawn ⊆ k.drawn)
    (owner : ∀ w id, k.store.owner? w = some id → l.store.owner? w = some id)
    (crowded : l.crowded ⊆ k.crowded) : k.Agrees task := by
  cases task with
  | look | read => trivial
  | renew e value | discard e value | bind e value =>
    obtain ⟨old, mine, sole⟩ := h
    exact ⟨drawn old, fun id at_ => mine id (owner _ _ at_),
      fun calm w at_ => sole (fun at_ => calm (crowded at_)) w (owner _ _ at_)⟩
  | store e => exact fun calm w at_ => h (fun at_ => calm (crowded at_)) w (owner _ _ at_)
  | judge value | expire value => exact drawn h
  | release value =>
    refine ⟨drawn h.1, Option.eq_none_iff_forall_ne_some.mpr fun id at_ => ?_⟩
    exact absurd (h.2.symm.trans (owner value id at_)) nofun

/-- A call does not notice that a token is stored for an account it does not issue to alone. -/
lemma Agrees.insert (h : l.Agrees task) (new : fresh ∉ l.drawn)
    (other : e.account.id ∉ l.crowded → task.issuesTo e.account.id = false) {tasks : List TokenTask} :
    Agrees { l with store := l.store.insertToken fresh e, tasks, drawn := fresh :: l.drawn } task := by
  have kept : ∀ w, w ≠ fresh → (l.store.insertToken fresh e).owner? w = l.store.owner? w :=
    fun w differs => (owner?_insertToken w).trans (if_neg differs)
  have mine : (l.store.insertToken fresh e).owner? fresh = some e.account.id :=
    (owner?_insertToken fresh).trans (if_pos rfl)
  cases task with
  | look | read => trivial
  | renew d value | discard d value | bind d value =>
    obtain ⟨old, owner, sole⟩ := h
    have differs : value ≠ fresh := fun same => new (same ▸ old)
    refine ⟨List.mem_cons_of_mem _ old, fun id at_ => owner id ((kept value differs).symm.trans at_),
      fun calm w at_ => ?_⟩
    by_cases same : w = fresh
    · subst same
      have account : e.account.id = d.account.id := Option.some.inj (mine.symm.trans at_)
      exact absurd (other (account ▸ calm)) (by simp [TokenTask.issuesTo, account])
    · exact sole calm w ((kept w same).symm.trans at_)
  | store d =>
    intro calm w at_
    by_cases same : w = fresh
    · subst same
      have account : e.account.id = d.account.id := Option.some.inj (mine.symm.trans at_)
      exact absurd (other (account ▸ calm)) (by simp [TokenTask.issuesTo, account])
    · exact h calm w ((kept w same).symm.trans at_)
  | judge value | expire value => exact List.mem_cons_of_mem _ h
  | release value =>
    have differs : value ≠ fresh := fun same => new (same ▸ h.1)
    exact ⟨List.mem_cons_of_mem _ h.1, (kept value differs).trans h.2⟩

lemma sound_empty {ttl : Nat} : Sound { store := { ttl } } where
  names := List.nodup_nil
  drawn := nofun
  bound := nofun
  current := nofun
  apart _ _ := Nat.zero_le 1
  agrees := nofun

/-- A call is the only one to issue to an account that no two calls issued to at once. -/
lemma Sound.alone (h : l.Sound) (running : l.tasks = before ++ task :: after)
    (issues : task.issuesTo id = true) (calm : id ∉ l.crowded) :
    ∀ u ∈ before ++ after, u.issuesTo id = false := by
  have one := h.apart id calm
  rw [running, List.countP_append, List.countP_cons_of_pos issues] at one
  have none : (before ++ after).countP (TokenTask.issuesTo id) = 0 := by
    rw [List.countP_append]
    omega
  exact fun u hu => Bool.eq_false_iff.mpr (List.countP_eq_zero.mp none u hu)

/-- Tokens may go, as may what is known of accounts whose token is gone. -/
lemma Sound.shrink (h : l.Sound) (names : (s.tokens.map Prod.fst).Nodup)
    (owner : ∀ w id, s.owner? w = some id → l.store.owner? w = some id)
    (bound : ∀ id w, s.valueOf? id = some w → l.store.valueOf? id = some w)
    (kept : ∀ id w, s.owner? w = some id → l.store.valueOf? id = some w → s.valueOf? id = some w) :
    Sound { l with store := s } where
  names := names
  drawn w id at_ := h.drawn w id (owner w id at_)
  bound id w at_ := by
    obtain ⟨old, mine⟩ := h.bound id w (bound id w at_)
    exact ⟨old, fun other at_ => mine other (owner w other at_)⟩
  current w id at_ := (h.current w id (owner w id at_)).imp_left (kept id w at_)
  apart := h.apart
  agrees task ht := (h.agrees task ht).mono (List.Subset.refl _) owner (List.Subset.refl _)

lemma mem_other {u : TokenTask} (running : l.tasks = before ++ task :: after) (hu : u ∈ before ++ after) :
    u ∈ l.tasks := by
  rw [running]
  exact List.mem_append.mpr ((List.mem_append.mp hu).imp_right (List.mem_cons_of_mem task))

/-- A call that did not bind a token gives way to what it does next. -/
lemma Sound.swap (h : l.Sound) (running : l.tasks = before ++ task :: after)
    (unbound : ∀ e value, task ≠ .bind e value) {next : List TokenTask}
    (agrees : ∀ u ∈ next, l.Agrees u)
    (issues : ∀ id, next.countP (TokenTask.issuesTo id) ≤ [task].countP (TokenTask.issuesTo id)) :
    Sound { l with tasks := before ++ next ++ after } where
  names := h.names
  drawn := h.drawn
  bound := h.bound
  current w id at_ := by
    refine (h.current w id at_).imp_right (Or.imp_left fun ⟨e, pending⟩ => ⟨e, ?_⟩)
    rw [running, List.mem_append, List.mem_cons] at pending
    have other := (unbound e w).symm
    simp only [List.mem_append]
    tauto
  apart id calm := by
    have one := h.apart id calm
    have le := issues id
    rw [running, List.append_cons, List.countP_append, List.countP_append] at one
    rw [List.countP_append, List.countP_append]
    omega
  agrees u hu := by
    rw [List.append_assoc, List.mem_append, List.mem_append] at hu
    rcases hu with hu | hu | hu
    · exact h.agrees u (mem_other running (List.mem_append_left _ hu))
    · exact agrees u hu
    · exact h.agrees u (mem_other running (List.mem_append_right _ hu))

lemma Sound.continues (h : l.Sound) (running : l.tasks = before ++ task :: after) {u : TokenTask}
    (agrees : l.Agrees u) (issues : ∀ id, u.issuesTo id = task.issuesTo id)
    (unbound : ∀ e value, task ≠ .bind e value := by simp) :
    Sound { l with tasks := before ++ [u] ++ after } := by
  refine h.swap running unbound (List.forall_mem_singleton.mpr agrees) fun id => Nat.le_of_eq ?_
  rw [List.countP_singleton, List.countP_singleton, issues]

lemma Sound.ends (h : l.Sound) (running : l.tasks = before ++ task :: after)
    (unbound : ∀ e value, task ≠ .bind e value := by simp) :
    Sound { l with tasks := before ++ [] ++ after } :=
  h.swap running unbound nofun fun _ => Nat.zero_le _

/-- A new token is stored, for the call to bind it next. -/
lemma Sound.insert (h : l.Sound) (running : l.tasks = before ++ .store e :: after)
    (new : fresh ∉ l.drawn) :
    Sound { l with
      store := l.store.insertToken fresh e
      tasks := before ++ [.bind e fresh] ++ after
      drawn := fresh :: l.drawn } where
  names := nodup_keys_assign h.names
  drawn w id at_ := by
    rw [owner?_insertToken] at at_
    split at at_
    · next same => exact same ▸ List.mem_cons_self
    · exact List.mem_cons_of_mem _ (h.drawn w id at_)
  bound id w at_ := by
    obtain ⟨old, mine⟩ := h.bound id w at_
    have other : w ≠ fresh := fun same => new (same ▸ old)
    refine ⟨List.mem_cons_of_mem _ old, fun owner at_ => mine owner ?_⟩
    rwa [owner?_insertToken, if_neg other] at at_
  current w id at_ := by
    rw [owner?_insertToken] at at_
    split at at_
    · next same => exact .inr (.inl ⟨e, by simp [same]⟩)
    · refine (h.current w id at_).imp_right (Or.imp_left fun ⟨d, pending⟩ => ⟨d, ?_⟩)
      simpa [running, or_assoc, or_comm, or_left_comm] using Or.inr pending
  apart id calm := by
    have one := h.apart id calm
    rw [running, List.append_cons, List.countP_append, List.countP_append] at one
    rwa [List.countP_append, List.countP_append]
  agrees u hu := by
    have issues : (TokenTask.store e).issuesTo e.account.id = true := decide_eq_true rfl
    have here := h.agrees (.store e) (by simp [running])
    by_cases mine : u = .bind e fresh
    · subst mine
      refine ⟨List.mem_cons_self, fun id at_ => ?_, fun calm w at_ => ?_⟩
      · rw [owner?_insertToken, if_pos rfl] at at_
        exact (Option.some.inj at_).symm
      · rw [owner?_insertToken] at at_
        split at at_
        · next same => exact same
        · exact absurd at_ (here calm w)
    · have hu : u ∈ before ++ after := by simpa [mine] using hu
      exact (h.agrees u (mem_other running hu)).insert new fun calm => h.alone running issues calm u hu

/-- A token becomes the one of its account. One that was stored until then is overtaken. -/
lemma Sound.bind (h : l.Sound) (running : l.tasks = before ++ .bind e value :: after) :
    Sound { l with
      store := l.store.bindAccount e.account.id value
      tasks := before ++ after
      overtaken := (TokenTask.bind e value).overtakes l.store ++ l.overtaken } where
  names := h.names
  drawn := h.drawn
  bound id w at_ := by
    rw [TokenStore.valueOf?_bindAccount] at at_
    obtain ⟨drawn, mine, -⟩ := h.agrees (.bind e value) (by simp [running])
    split at at_
    · next same =>
      obtain rfl := Option.some.inj at_
      exact ⟨drawn, fun other at_ => (mine other at_).trans same.symm⟩
    · exact h.bound id w at_
  current w id at_ := by
    obtain ⟨-, mine, sole⟩ := h.agrees (.bind e value) (by simp [running])
    change l.store.owner? w = some id at at_
    rw [TokenStore.valueOf?_bindAccount]
    by_cases here : w = value
    · subst here
      exact .inl (if_pos (mine id at_))
    rcases h.current w id at_ with now | ⟨d, pending⟩ | ⟨old, crowd⟩
    · by_cases same : id = e.account.id
      -- `w` was the token of the account until now and stays stored: another call has put it there.
      · have crowd : id ∈ l.crowded := by
          by_contra calm
          exact here (sole (same ▸ calm) w (same ▸ at_))
        have stored : (l.store.entry? w).isSome = true := by
          obtain ⟨d, found, -⟩ := Option.map_eq_some_iff.mp at_
          rw [found, Option.isSome_some]
        refine .inr (.inr ⟨List.mem_append_left _ ?_, crowd⟩)
        simp [TokenTask.overtakes, ← same, now, here, stored]
      · exact .inl ((if_neg same).trans now)
    · refine .inr (.inl ⟨d, ?_⟩)
      simpa [running, here] using pending
    · exact .inr (.inr ⟨List.mem_append_right _ old, crowd⟩)
  apart id calm := by
    have one := h.apart id calm
    rw [running, List.append_cons, List.countP_append, List.countP_append] at one
    rw [List.countP_append]
    omega
  agrees u hu := h.agrees u (mem_other running hu)

/-- The stored tokens of an account that only this call issues to, when the call looks. -/
lemma Sound.held (h : l.Sound) (running : l.tasks = before ++ .look e :: after)
    (calm : e.account.id ∉ l.crowded) (at_ : l.store.owner? value = some e.account.id) :
    l.store.valueOf? e.account.id = some value := by
  rcases h.current value _ at_ with now | ⟨d, pending⟩ | ⟨-, crowd⟩
  · exact now
  · obtain ⟨-, mine, -⟩ := h.agrees _ pending
    have other : .bind d value ∈ before ++ after := by simpa [running] using pending
    have issues : (TokenTask.bind d value).issuesTo e.account.id = true :=
      decide_eq_true (mine _ at_).symm
    have alone := h.alone running (decide_eq_true rfl) calm _ other
    exact absurd (issues.symm.trans alone) nofun
  · exact absurd crowd calm

/-- Every step of a call in progress keeps the store sound. -/
lemma Sound.go (h : l.Sound) (now : Nat) (running : l.tasks = before ++ task :: after)
    (new : fresh ∉ l.drawn) :
    Sound { l with
      store := (task.advance l.store now fresh).1
      tasks := before ++ (task.advance l.store now fresh).2.getLeft?.toList ++ after
      drawn := task.draws fresh ++ l.drawn
      overtaken := task.overtakes l.store ++ l.overtaken } := by
  have here := h.agrees task (by simp [running])
  have removed : ∀ value, Sound { l with store := l.store.removeToken value } := by
    intro value
    refine h.shrink (nodup_keys_unassign h.names) (fun w id at_ => ?_) (fun _ _ at_ => at_)
      (fun _ _ _ at_ => at_)
    rw [owner?_removeToken] at at_
    exact (Option.ite_none_left_eq_some.mp at_).2
  cases task with
  | look e =>
    cases bound : l.store.valueOf? e.account.id with
    | none =>
      simp only [TokenTask.advance, bound]
      refine h.continues running (u := .store e) (fun calm w at_ => ?_) fun _ => rfl
      exact absurd (bound.symm.trans (h.held running calm at_)) nofun
    | some value =>
      obtain ⟨drawn, mine⟩ := h.bound _ _ bound
      simp only [TokenTask.advance, bound]
      refine h.continues running (u := .renew e value)
        ⟨drawn, mine, fun calm w at_ => ?_⟩ fun _ => rfl
      exact Option.some.inj ((h.held running calm at_).symm.trans bound)
  | renew e value =>
    by_cases valid : l.store.isValid now value = true
    · simp only [TokenTask.advance, TokenStore.refresh, valid, if_true]
      obtain ⟨-, mine, -⟩ := here
      -- The entry changes under its name, for the account it already belonged to: no token is new.
      refine (h.shrink (s := l.store.insertToken value e) (nodup_keys_assign h.names)
        (fun w id at_ => ?_) (fun _ _ at_ => at_) (fun _ _ _ at_ => at_)).ends running
      rw [owner?_insertToken] at at_
      split at at_
      · next same =>
        obtain ⟨d, found, -⟩ := TokenStore.isValid_iff.mp valid
        have stored : l.store.owner? value = some d.account.id := by
          rw [TokenStore.owner?, found, Option.map_some]
        rw [same, stored, mine _ stored, at_]
      · exact at_
    · simp only [TokenTask.advance, TokenStore.refresh, valid, Bool.false_eq_true, if_false]
      exact h.continues running (u := .discard e value) here fun _ => rfl
  | discard e value =>
    obtain ⟨-, -, sole⟩ := here
    refine (removed value).continues running (u := .store e) (fun calm w at_ => ?_) fun _ => rfl
    rw [owner?_removeToken] at at_
    obtain ⟨other, at_⟩ := Option.ite_none_left_eq_some.mp at_
    exact other (sole calm w at_)
  | store e => exact h.insert running new
  | bind e value =>
    have bound := h.bind running
    rwa [← List.append_nil before] at bound
  | read value =>
    cases found : l.store.entry? value with
    | none =>
      simp only [TokenTask.advance, found]
      exact h.ends running
    | some d =>
      have drawn := h.drawn value d.account.id (by rw [TokenStore.owner?, found, Option.map_some])
      simp only [TokenTask.advance, found]
      exact h.continues running (u := .judge value d) drawn fun _ => rfl
  | judge value found =>
    by_cases expired : found.validUntil ≤ now
    · simp only [TokenTask.advance, expired, if_true]
      exact h.continues running (u := .expire value found) here fun _ => rfl
    · simp only [TokenTask.advance, expired, if_false]
      exact h.ends running
  | expire value found =>
    refine (removed value).continues running (u := .release value found) ⟨here, ?_⟩ fun _ => rfl
    exact (owner?_removeToken value).trans (if_pos rfl)
  | release value found =>
    have owner : ∀ w, (l.store.unbindAccount found.account.id value).owner? w = l.store.owner? w := by
      intro w
      rw [TokenStore.owner?, TokenStore.entry?_unbindAccount, TokenStore.owner?]
    refine (h.shrink (s := l.store.unbindAccount found.account.id value) ?_ (fun w id at_ => ?_)
      (fun id w at_ => ?_) fun id w at_ bound => ?_).ends running
    · rw [TokenStore.unbindAccount]
      split <;> exact h.names
    · rwa [owner] at at_
    · rw [TokenStore.valueOf?_unbindAccount] at at_
      exact (Option.ite_none_left_eq_some.mp at_).2
    -- The pair that goes is that of the removed name, so no stored token loses its account.
    · rw [TokenStore.valueOf?_unbindAccount]
      split
      · next gone =>
        obtain ⟨rfl, current⟩ := gone
        obtain rfl := Option.some.inj (bound.symm.trans current)
        rw [owner, here.2] at at_
        cases at_
      · exact bound

/-- A call begins. Where it issues to an account beside another call, the account is crowded now. -/
lemma Sound.begins (h : l.Sound) (task : TokenTask) (agrees : ∀ k : Logins, k.Agrees task)
    {crowded : List String}
    (more : l.crowded ⊆ crowded)
    (first : ∀ id ∉ crowded, task.issuesTo id = true → ∀ u ∈ l.tasks, u.issuesTo id = false) :
    Sound { l with tasks := l.tasks ++ [task], crowded } where
  names := h.names
  drawn := h.drawn
  bound := h.bound
  current w id at_ := by
    refine (h.current w id at_).imp_right (Or.imp ?_ (And.imp_right (@more id)))
    exact fun ⟨e, pending⟩ => ⟨e, List.mem_append_left _ pending⟩
  apart id calm := by
    have one := h.apart id fun at_ => calm (more at_)
    rw [List.countP_append, List.countP_singleton]
    split
    · next issues =>
      have none := List.countP_eq_zero.mpr fun u hu => Bool.eq_false_iff.mp (first id calm issues u hu)
      omega
    · exact one
  agrees u hu := by
    rcases List.mem_append.mp hu with hu | hu
    · exact (h.agrees u hu).mono (List.Subset.refl _) (fun _ _ at_ => at_) more
    · obtain rfl := List.mem_singleton.mp hu
      exact agrees _

lemma Sound.step {k : Logins} (h : l.Sound) (step : l.Step k) : k.Sound := by
  cases step with
  | issue now account =>
    refine h.begins (.look ⟨account, now + l.store.ttl⟩) (fun _ => trivial) ?_ fun id calm issues => ?_
    · split
      · exact List.subset_cons_self _ _
      · exact List.Subset.refl _
    · obtain rfl : account.id = id := of_decide_eq_true issues
      split at calm
      · exact absurd List.mem_cons_self calm
      · next none => simpa using none
  | verify value => exact h.begins (.read value) (fun _ => trivial) (List.Subset.refl _) nofun
  | go now fresh running new => exact h.go now running new

lemma sound_of_reached {ttl : Nat} (h : Reached ttl l) : l.Sound := by
  induction h with
  | refl => exact sound_empty
  | tail _ step ih => exact ih.step step

lemma Sound.current_of_quiet (h : l.Sound) (quiet : l.tasks = [])
    (found : l.store.entry? value = some e) : l.store.valueOf? e.account.id = some value ∨
      value ∈ l.overtaken ∧ e.account.id ∈ l.crowded := by
  have at_ : l.store.owner? value = some e.account.id := by rw [TokenStore.owner?, found, Option.map_some]
  refine (h.current value _ at_).imp_right (Or.resolve_left · ?_)
  rw [quiet]
  exact fun ⟨_, pending⟩ => List.not_mem_nil pending

/-- With no call in progress, a stored token that is not the one of its account was overtaken, by a call
that issued to the account beside another. So no more tokens are stored than accounts have one and
tokens were overtaken, and no more than accounts have one if calls to one account never met. An account
that two calls never issued to at once has at most one token. -/
theorem stored_of_quiet {ttl : Nat} (h : Reached ttl l) (quiet : l.tasks = []) :
    (∀ value e, l.store.entry? value = some e → l.store.valueOf? e.account.id = some value ∨
      value ∈ l.overtaken ∧ e.account.id ∈ l.crowded) ∧
    l.store.size ≤ l.store.byAccount.length + l.overtaken.length ∧
    (l.crowded = [] → l.store.size ≤ l.store.byAccount.length) ∧
    ∀ v w e d, l.store.entry? v = some e → l.store.entry? w = some d →
      e.account.id = d.account.id → e.account.id ∉ l.crowded → v = w := by
  have sound := sound_of_reached h
  have current : ∀ value e, l.store.entry? value = some e →
      l.store.valueOf? e.account.id = some value ∨
        value ∈ l.overtaken ∧ e.account.id ∈ l.crowded :=
    fun _ _ => sound.current_of_quiet quiet
  have calm : ∀ value e, l.store.entry? value = some e → e.account.id ∉ l.crowded →
      l.store.valueOf? e.account.id = some value :=
    fun value e found calm => (current value e found).resolve_right fun taken => calm taken.2
  have size_le : ∀ names, l.store.tokens.map Prod.fst ⊆ names → l.store.size ≤ names.length := by
    intro names sub
    have le := (List.subperm_of_subset sound.names sub).length_le
    rwa [List.length_map] at le
  refine ⟨current, ?_, fun none => ?_, fun v w e d first second same apart => ?_⟩
  · rw [← List.length_map (f := Prod.snd), ← List.length_append]
    refine size_le _ fun value hv => List.mem_append.mpr ?_
    obtain ⟨p, hp, rfl⟩ := List.mem_map.mp hv
    refine (current p.1 p.2 (lookup_of_mem sound.names hp)).imp (fun bound => ?_) And.left
    exact List.mem_map_of_mem (mem_of_lookup bound)
  · rw [← List.length_map (f := Prod.snd)]
    refine size_le _ fun value hv => ?_
    obtain ⟨p, hp, rfl⟩ := List.mem_map.mp hv
    have bound := calm p.1 p.2 (lookup_of_mem sound.names hp) (none ▸ List.not_mem_nil)
    exact List.mem_map_of_mem (mem_of_lookup bound)
  · have one := calm v e first apart
    rw [same] at one apart
    exact Option.some.inj (one.symm.trans (calm w d second apart))

/-- Two calls for one account that begin before either looks. Both find that it has no token. -/
lemma two_logins (ttl : Nat) :
    let e : TokenEntry := ⟨⟨"ada", [], .nil⟩, 0 + ttl⟩
    Reached ttl
      { store := ⟨ttl, [("a", e), ("b", e)], [("ada", "b")]⟩
        drawn := ["b", "a"]
        crowded := ["ada"]
        overtaken := ["a"] } := by
  intro e
  have begun : Reached ttl { store := { ttl }, tasks := [.look e, .look e], crowded := ["ada"] } :=
    (Relation.ReflTransGen.single (Step.issue 0 e.account)).tail (Step.issue 0 e.account)
  have looked : Reached ttl
      { store := { ttl }, tasks := [.store e, .store e], crowded := ["ada"] } :=
    (begun.tail (@Step.go _ [] [.look e] (.look e) 0 "" rfl nofun)).tail
      (@Step.go _ [.store e] [] (.look e) 0 "" rfl nofun)
  have stored : Reached ttl
      { store := ⟨ttl, [("a", e), ("b", e)], []⟩
        tasks := [.bind e "a", .bind e "b"]
        drawn := ["b", "a"]
        crowded := ["ada"] } :=
    (looked.tail (@Step.go _ [] [.store e] (.store e) 0 "a" rfl nofun)).tail
      (@Step.go _ [.bind e "a"] [] (.store e) 0 "b" rfl (by decide : "b" ∉ ["a"]))
  have new : "" ∉ ["b", "a"] := by decide
  exact (stored.tail (@Step.go _ [] [.bind e "b"] (.bind e "a") 0 "" rfl new)).tail
    (@Step.go _ [] [] (.bind e "b") 0 "" rfl new)

/-- Of two simultaneous logins of one account the first leaves a token that is stored and valid without
being the one of its account. -/
theorem stored_after_two_logins :
    ∃ l, Reached 900 l ∧ l.tasks = [] ∧ l.overtaken = ["a"] ∧
      (l.store.verify 0 "a").2.isSome = true ∧ (l.store.verify 0 "b").2.isSome = true ∧
      (∃ e, l.store.entry? "a" = some e ∧ l.store.valueOf? e.account.id = some "b") ∧
      l.store.byAccount.length < l.store.size ∧
      l.store.size ≤ l.store.byAccount.length + 1 :=
  have reached := two_logins 900
  ⟨_, reached, rfl, rfl, rfl, rfl, ⟨_, rfl, rfl⟩, by decide, (stored_of_quiet reached rfl).2.1⟩

end Logins
end Gateway
