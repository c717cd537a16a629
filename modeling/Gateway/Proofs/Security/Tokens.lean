import Mathlib.Data.List.Nodup
import Gateway.Security.Token

/-! Histories of a token store. Whom a token stands for, and until when, is what the last issue that
returned it says. -/
namespace Gateway

section Assignments
variable {α : Type} {l : List (String × α)} {k m : String} {v : α}

lemma lookup_assign : (assign l k v).lookup m = if m = k then some v else l.lookup m := by
  split
  · next same => rw [same, lookup_assign_self]
  · next other => exact lookup_assign_of_ne l other v

lemma lookup_unassign : (unassign l k).lookup m = if m = k then none else l.lookup m := by
  split
  · next same => rw [same, lookup_unassign_self]
  · next other => exact lookup_unassign_of_ne l other

lemma keys_unassign : (unassign l k).map Prod.fst = (l.map Prod.fst).filter (· ≠ k) := by
  rw [unassign, List.filter_map]
  rfl

lemma nodup_keys_unassign (h : (l.map Prod.fst).Nodup) : ((unassign l k).map Prod.fst).Nodup := by
  rw [keys_unassign]
  exact h.filter _

lemma nodup_keys_assign (h : (l.map Prod.fst).Nodup) : ((assign l k v).map Prod.fst).Nodup := by
  rw [assign, List.map_append, List.nodup_append]
  refine ⟨nodup_keys_unassign h, List.nodup_singleton k, fun a ha b hb => ?_⟩
  rw [keys_unassign, List.mem_filter, decide_eq_true_eq] at ha
  rw [List.mem_singleton.mp hb]
  exact ha.2

lemma lookup_of_mem (h : (l.map Prod.fst).Nodup) (mem : (k, v) ∈ l) : l.lookup k = some v := by
  obtain ⟨before, after, rfl⟩ := List.append_of_mem mem
  rw [List.map_append, List.map_cons, List.nodup_append] at h
  refine List.lookup_eq_some_iff.mpr ⟨before, after, rfl, fun p hp => ?_⟩
  have other := h.2.2 p.1 (List.mem_map_of_mem hp) k List.mem_cons_self
  exact bne_iff_ne.mpr other.symm

lemma mem_of_lookup (at_ : l.lookup k = some v) : (k, v) ∈ l := by
  obtain ⟨before, after, rfl, -⟩ := List.lookup_eq_some_iff.mp at_
  exact List.mem_append_right _ List.mem_cons_self

end Assignments

namespace TokenStore
variable {s : TokenStore} {value w id other : String} {e : TokenEntry}

lemma entry?_insertToken :
    entry? (s.insertToken value e) w = if w = value then some e else s.entry? w :=
  lookup_assign

lemma entry?_removeToken :
    entry? (s.removeToken value) w = if w = value then none else s.entry? w :=
  lookup_unassign

@[simp] lemma entry?_bindAccount : entry? (s.bindAccount id value) w = s.entry? w := rfl

@[simp] lemma entry?_unbindAccount : entry? (s.unbindAccount id value) w = s.entry? w := by
  unfold unbindAccount
  split <;> rfl

@[simp] lemma valueOf?_insertToken : (s.insertToken value e).valueOf? id = s.valueOf? id := rfl

@[simp] lemma valueOf?_removeToken : (s.removeToken value).valueOf? id = s.valueOf? id := rfl

lemma valueOf?_bindAccount :
    (s.bindAccount id value).valueOf? other = if other = id then some value else s.valueOf? other :=
  lookup_assign

lemma valueOf?_unbindAccount : (s.unbindAccount id value).valueOf? other =
    if other = id ∧ s.valueOf? id = some value then none else s.valueOf? other := by
  unfold unbindAccount
  split
  · next current => simp only [current, and_true]; exact lookup_unassign
  · next stale => simp only [stale, and_false, if_false]

lemma isValid_iff {now : Nat} :
    s.isValid now value = true ↔ ∃ e, s.entry? value = some e ∧ now < e.validUntil := by
  simp [isValid, Option.any_eq_true_iff_get, Option.eq_some_iff_get_eq]

/-- The store without the token of an account. -/
def cleared (s : TokenStore) (id : String) : TokenStore :=
  match s.valueOf? id with
  | none => s
  | some value => s.removeToken value

lemma entry?_cleared :
    entry? (s.cleared id) w = if s.valueOf? id = some w then none else s.entry? w := by
  unfold cleared
  split
  · next free => rw [free, if_neg nofun]
  · next value bound =>
    rw [bound, entry?_removeToken]
    simp only [Option.some.injEq, eq_comm]

@[simp] lemma valueOf?_cleared : (s.cleared id).valueOf? other = s.valueOf? other := by
  unfold cleared
  split <;> rfl

/-- An account's valid token is extended. -/
lemma issue_of_valid {now : Nat} {fresh : String} {account : Account}
    (bound : s.valueOf? account.id = some value) (valid : s.isValid now value = true) :
    s.issue now fresh account =
      (s.insertToken value ⟨account, now + s.ttl⟩, ⟨value, now + s.ttl⟩) := by
  simp only [issue, bound, refresh, valid, if_true]

/-- An account without a valid token is given the fresh one. -/
lemma issue_of_not_valid {now : Nat} {fresh : String} {account : Account}
    (invalid : ∀ value, s.valueOf? account.id = some value → s.isValid now value = false) :
    s.issue now fresh account =
      ((s.cleared account.id).grant fresh ⟨account, now + s.ttl⟩, ⟨fresh, now + s.ttl⟩) := by
  unfold issue cleared
  cases bound : s.valueOf? account.id with
  | none => rfl
  | some value => simp only [refresh, invalid value bound, Bool.false_eq_true, if_false]

/-- Every account with a stored token has that one and no other, and no name is listed twice. -/
structure Inverse (s : TokenStore) : Prop where
  tokens : (s.tokens.map Prod.fst).Nodup
  accounts : (s.byAccount.map Prod.fst).Nodup
  bound : ∀ id value, s.valueOf? id = some value ↔
    ∃ e, s.entry? value = some e ∧ e.account.id = id

lemma inverse_empty {ttl : Nat} : Inverse { ttl } :=
  ⟨List.nodup_nil, List.nodup_nil, fun _ _ => ⟨nofun, nofun⟩⟩

lemma Inverse.entry_unique (h : s.Inverse) {e d : TokenEntry} (first : s.entry? value = some e)
    (second : s.entry? w = some d) (same : e.account.id = d.account.id) : value = w := by
  have one := (h.bound d.account.id value).mpr ⟨e, first, same⟩
  have two := (h.bound d.account.id w).mpr ⟨d, second, rfl⟩
  exact Option.some.inj (one.symm.trans two)

/-- At most one token of an account is stored. -/
lemma Inverse.nodup_owners (h : s.Inverse) : (s.tokens.map (·.2.account.id)).Nodup := by
  have stored : ∀ p ∈ s.tokens, s.entry? p.1 = some p.2 := fun p hp => lookup_of_mem h.tokens hp
  refine List.pairwise_map.mpr ((List.pairwise_map.mp h.tokens).imp_of_mem fun hp hq other same => ?_)
  exact other (h.entry_unique (stored _ hp) (stored _ hq) same)

lemma Inverse.drop (h : s.Inverse) (found : s.entry? value = some e) :
    ((s.removeToken value).unbindAccount e.account.id value).Inverse where
  tokens := by
    unfold unbindAccount
    split <;> exact nodup_keys_unassign h.tokens
  accounts := by
    unfold unbindAccount
    split
    · exact nodup_keys_unassign h.accounts
    · exact h.accounts
  bound id w := by
    have current := (h.bound e.account.id value).mpr ⟨e, found, rfl⟩
    simp only [valueOf?_unbindAccount, valueOf?_removeToken, entry?_unbindAccount,
      entry?_removeToken, current, and_true]
    have bound := h.bound id w
    grind

lemma Inverse.renew (h : s.Inverse) (bound : s.valueOf? e.account.id = some value) :
    (s.insertToken value e).Inverse where
  tokens := nodup_keys_assign h.tokens
  accounts := h.accounts
  bound id w := by
    obtain ⟨d, found, owner⟩ := (h.bound _ _).mp bound
    have old := h.bound id w
    rw [valueOf?_insertToken, entry?_insertToken, old]
    split
    · next same =>
      subst same
      simp [found, owner]
    · rfl

lemma Inverse.grant (h : s.Inverse) {fresh : String} (new : s.entry? fresh = none) :
    ((s.cleared e.account.id).grant fresh e).Inverse where
  tokens := by
    refine nodup_keys_assign ?_
    unfold cleared
    split
    · exact h.tokens
    · exact nodup_keys_unassign h.tokens
  accounts := by
    refine nodup_keys_assign (l := (s.cleared e.account.id).byAccount) ?_
    unfold cleared
    split <;> exact h.accounts
  bound id w := by
    have old := h.bound id w
    have mine := h.bound e.account.id w
    simp only [TokenStore.grant, valueOf?_bindAccount, valueOf?_insertToken, valueOf?_cleared,
      entry?_bindAccount, entry?_insertToken, entry?_cleared]
    grind

/-- An account and the token it was given, with the time of the call. -/
structure Issue where
  time : Nat
  account : Account
  token : Token

/-- The calls of a store, one after the other, of a clock that does not go back. Fresh values are new
and the issues are listed newest first. -/
inductive Recorded (ttl : Nat) : List Issue → Nat → TokenStore → Prop
  | start : Recorded ttl [] 0 { ttl }
  | issue {issued : List Issue} {time now : Nat} {s : TokenStore} {fresh : String}
      {account : Account} (h : Recorded ttl issued time s) (later : time ≤ now)
      (new : fresh ∉ issued.map (·.token.value)) :
      Recorded ttl (⟨now, account, (s.issue now fresh account).2⟩ :: issued) now
        (s.issue now fresh account).1
  | verify {issued : List Issue} {time now : Nat} {s : TokenStore} {value : String}
      (h : Recorded ttl issued time s) (later : time ≤ now) :
      Recorded ttl issued now (s.verify now value).1

section Issues
variable {issued : List Issue} {time now ttl : Nat} {i : Issue} {account : Account} {fresh : String}

/-- The last issue that returned a token. -/
def lastOf? (issued : List Issue) (value : String) : Option Issue :=
  issued.find? (·.token.value = value)

/-- The last issue to an account. -/
def lastFor? (issued : List Issue) (id : String) : Option Issue :=
  issued.find? (·.account.id = id)

lemma lastOf?_cons : lastOf? (i :: issued) value =
    if i.token.value = value then some i else lastOf? issued value := by
  simp only [lastOf?, List.find?_cons]
  split <;> simp_all

lemma lastFor?_mem (h : lastFor? issued id = some i) : i ∈ issued ∧ i.account.id = id :=
  ⟨List.mem_of_find?_eq_some h, by simpa using List.find?_some h⟩

lemma lastOf?_mem (h : lastOf? issued value = some i) : i ∈ issued ∧ i.token.value = value :=
  ⟨List.mem_of_find?_eq_some h, by simpa using List.find?_some h⟩

/-- What the store holds after the calls so far. A token that is not stored any more has expired. -/
structure Tracks (ttl : Nat) (issued : List Issue) (time : Nat) (s : TokenStore) : Prop where
  lifetime : s.ttl = ttl
  inverse : s.Inverse
  stored : ∀ value e, s.entry? value = some e →
    ∃ i, lastOf? issued value = some i ∧ i.account = e.account ∧ i.token.validUntil = e.validUntil
  dropped : ∀ value i, lastOf? issued value = some i → s.entry? value = none →
    i.token.validUntil ≤ time
  expiry : ∀ i ∈ issued, i.token.validUntil = i.time + ttl
  past : ∀ i ∈ issued, i.time ≤ time
  owner : ∀ i ∈ issued, ∀ j ∈ issued, i.token.value = j.token.value → i.account.id = j.account.id

lemma tracks_start : Tracks ttl [] 0 { ttl } where
  lifetime := rfl
  inverse := inverse_empty
  stored := nofun
  dropped := nofun
  expiry := nofun
  past := nofun
  owner := nofun

namespace Tracks

/-- A stored token is as the last issue that returned it says. -/
lemma stored_as (h : Tracks ttl issued time s) (found : s.entry? value = some e)
    (last : lastOf? issued value = some i) :
    i.account = e.account ∧ i.token.validUntil = e.validUntil := by
  obtain ⟨j, lastj, same⟩ := h.stored value e found
  obtain rfl := Option.some.inj (last.symm.trans lastj)
  exact same

lemma later (h : Tracks ttl issued time s) (le : time ≤ now) : Tracks ttl issued now s where
  lifetime := h.lifetime
  inverse := h.inverse
  stored := h.stored
  dropped value i last gone := Nat.le_trans (h.dropped value i last gone) le
  expiry := h.expiry
  past i hi := Nat.le_trans (h.past i hi) le
  owner := h.owner

lemma drop (h : Tracks ttl issued time s) (found : s.entry? value = some e)
    (expired : e.validUntil ≤ time) :
    Tracks ttl issued time ((s.removeToken value).unbindAccount e.account.id value) where
  lifetime := by
    rw [← h.lifetime, unbindAccount]
    split <;> rfl
  inverse := h.inverse.drop found
  stored w d at_ := by
    rw [entry?_unbindAccount, entry?_removeToken] at at_
    exact h.stored w d (Option.ite_none_left_eq_some.mp at_).2
  dropped w i last gone := by
    rw [entry?_unbindAccount, entry?_removeToken] at gone
    split at gone
    · next same =>
      subst same
      rwa [(h.stored_as found last).2]
    · exact h.dropped w i last gone
  expiry := h.expiry
  past := h.past
  owner := h.owner

lemma owner_cons (owner : ∀ i ∈ issued, ∀ j ∈ issued, i.token.value = j.token.value →
      i.account.id = j.account.id)
    (mine : ∀ j ∈ issued, j.token.value = i.token.value → j.account.id = i.account.id) :
    ∀ j ∈ i :: issued, ∀ k ∈ i :: issued, j.token.value = k.token.value →
      j.account.id = k.account.id := by
  intro j hj k hk same
  rcases List.mem_cons.mp hj with rfl | oldj <;> rcases List.mem_cons.mp hk with rfl | oldk
  · rfl
  · exact (mine k oldk same.symm).symm
  · exact mine j oldj same
  · exact owner j oldj k oldk same

lemma renew (h : Tracks ttl issued time s) (bound : s.valueOf? account.id = some value) :
    Tracks ttl (⟨time, account, ⟨value, time + s.ttl⟩⟩ :: issued) time
      (s.insertToken value ⟨account, time + s.ttl⟩) where
  lifetime := h.lifetime
  inverse := h.inverse.renew bound
  stored w d at_ := by
    rw [entry?_insertToken] at at_
    rw [lastOf?_cons]
    split at at_
    · next same =>
      obtain rfl := Option.some.inj at_
      exact ⟨_, if_pos same.symm, rfl, rfl⟩
    · next other =>
      rw [if_neg (Ne.symm other)]
      exact h.stored w d at_
  dropped w i last gone := by
    rw [entry?_insertToken] at gone
    rw [lastOf?_cons] at last
    split at gone
    · cases gone
    · next other =>
      rw [if_neg (Ne.symm other)] at last
      exact h.dropped w i last gone
  expiry := List.forall_mem_cons.mpr ⟨by rw [h.lifetime], h.expiry⟩
  past := List.forall_mem_cons.mpr ⟨Nat.le_refl time, h.past⟩
  owner := by
    obtain ⟨d, found, owner⟩ := (h.inverse.bound _ _).mp bound
    obtain ⟨k, last, same, -⟩ := h.stored value d found
    refine owner_cons h.owner fun j hj eq => ?_
    rw [h.owner j hj k (lastOf?_mem last).1 (eq.trans (lastOf?_mem last).2.symm), same, owner]

lemma grant (h : Tracks ttl issued time s) (new : fresh ∉ issued.map (·.token.value))
    (invalid : ∀ value, s.valueOf? account.id = some value → s.isValid time value = false) :
    Tracks ttl (⟨time, account, ⟨fresh, time + s.ttl⟩⟩ :: issued) time
      ((s.cleared account.id).grant fresh ⟨account, time + s.ttl⟩) where
  lifetime := by
    rw [← h.lifetime, TokenStore.grant, bindAccount, insertToken, cleared]
    split <;> rfl
  inverse := by
    refine h.inverse.grant (e := ⟨account, time + s.ttl⟩) (Option.eq_none_iff_forall_ne_some.mpr ?_)
    intro d found
    obtain ⟨i, last, -⟩ := h.stored fresh d found
    exact new (List.mem_map.mpr ⟨i, lastOf?_mem last⟩)
  stored w d at_ := by
    simp only [TokenStore.grant, entry?_bindAccount, entry?_insertToken, entry?_cleared] at at_
    rw [lastOf?_cons]
    split at at_
    · next same =>
      obtain rfl := Option.some.inj at_
      exact ⟨_, if_pos same.symm, rfl, rfl⟩
    · next other =>
      rw [if_neg (Ne.symm other)]
      exact h.stored w d (Option.ite_none_left_eq_some.mp at_).2
  dropped w i last gone := by
    simp only [TokenStore.grant, entry?_bindAccount, entry?_insertToken, entry?_cleared] at gone
    rw [lastOf?_cons] at last
    split at gone
    · cases gone
    · next other =>
      rw [if_neg (Ne.symm other)] at last
      split at gone
      -- The cleared name is the one that `invalid` is about: it was of no use any more.
      · next bound =>
        obtain ⟨d, found, -⟩ := (h.inverse.bound _ _).mp bound
        have expired : ¬∃ e, s.entry? w = some e ∧ time < e.validUntil := by
          rw [← isValid_iff, invalid w bound]
          exact Bool.false_ne_true
        rw [(h.stored_as found last).2]
        exact Nat.le_of_not_lt fun valid => expired ⟨d, found, valid⟩
      · exact h.dropped w i last gone
  expiry := List.forall_mem_cons.mpr ⟨by rw [h.lifetime], h.expiry⟩
  past := List.forall_mem_cons.mpr ⟨Nat.le_refl time, h.past⟩
  owner := owner_cons h.owner fun j hj eq =>
    absurd (List.mem_map.mpr ⟨j, hj, eq⟩) new

lemma issue (h : Tracks ttl issued time s) (new : fresh ∉ issued.map (·.token.value)) :
    Tracks ttl (⟨time, account, (s.issue time fresh account).2⟩ :: issued) time
      (s.issue time fresh account).1 := by
  by_cases valid : ∃ value, s.valueOf? account.id = some value ∧ s.isValid time value = true
  · obtain ⟨value, bound, valid⟩ := valid
    rw [issue_of_valid bound valid]
    exact h.renew bound
  · have invalid : ∀ value, s.valueOf? account.id = some value → s.isValid time value = false :=
      fun value bound => Bool.eq_false_iff.mpr fun on => valid ⟨value, bound, on⟩
    rw [issue_of_not_valid invalid]
    exact h.grant new invalid

lemma verify (h : Tracks ttl issued time s) : Tracks ttl issued time (s.verify time value).1 := by
  unfold TokenStore.verify
  split
  · exact h
  · next e found =>
    split
    · next expired => exact h.drop found expired
    · exact h

end Tracks

lemma Recorded.tracks (h : Recorded ttl issued time s) : Tracks ttl issued time s := by
  induction h with
  | start => exact tracks_start
  | issue _ later new ih => exact (ih.later later).issue new
  | verify _ later ih => exact (ih.later later).verify

lemma verify_eq_some_iff : (s.verify now value).2 = some account ↔
    ∃ e, s.entry? value = some e ∧ now < e.validUntil ∧ e.account = account := by
  unfold verify
  cases s.entry? value with
  | none => simp
  | some e =>
    rcases Nat.lt_or_ge now e.validUntil with valid | expired
    · simp [valid, Nat.not_le.mpr valid]
    · simp [expired, Nat.not_lt.mpr expired]

lemma Tracks.verify_iff (h : Tracks ttl issued time s) (later : time ≤ now) :
    (s.verify now value).2 = some account ↔
      ∃ i, lastOf? issued value = some i ∧ i.account = account ∧ now < i.time + ttl := by
  rw [verify_eq_some_iff]
  constructor
  · rintro ⟨e, found, valid, rfl⟩
    obtain ⟨i, last, owner, until_⟩ := h.stored value e found
    refine ⟨i, last, owner, ?_⟩
    rwa [← h.expiry i (lastOf?_mem last).1, until_]
  · rintro ⟨i, last, rfl, valid⟩
    rw [← h.expiry i (lastOf?_mem last).1] at valid
    cases found : s.entry? value with
    | none =>
      have expired := h.dropped value i last found
      omega
    | some e =>
      obtain ⟨owner, until_⟩ := h.stored_as found last
      exact ⟨e, rfl, until_ ▸ valid, owner.symm⟩

/-- Issues are listed from the newest to the oldest. -/
lemma Recorded.newest_first (h : Recorded ttl issued time s) :
    issued.Pairwise fun newer older => older.time ≤ newer.time := by
  induction h with
  | start => exact .nil
  | issue h later _ ih =>
    exact List.pairwise_cons.mpr ⟨fun i hi => Nat.le_trans (h.tracks.past i hi) later, ih⟩
  | verify _ _ ih => exact ih

/-- For its lifetime an issued token stands for whom the last issue of it says, who has the same name. -/
lemma Recorded.verify_issued (h : Recorded ttl issued time s) (later : time ≤ now) (mem : i ∈ issued)
    (valid : now < i.time + ttl) : ∃ j, lastOf? issued i.token.value = some j ∧
      j.account.id = i.account.id ∧ (s.verify now i.token.value).2 = some j.account := by
  obtain ⟨j, last⟩ : ∃ j, lastOf? issued i.token.value = some j :=
    Option.isSome_iff_exists.mp (List.find?_isSome.mpr ⟨i, mem, by simp⟩)
  obtain ⟨hj, same⟩ := lastOf?_mem last
  obtain ⟨-, newer, older, listed, others⟩ := List.find?_eq_some_iff_append.mp last
  have not_older : i.time ≤ j.time := by
    have sorted := h.newest_first
    rw [listed] at mem sorted
    rcases List.mem_append.mp mem with hi | hi
    · exact absurd (others i hi) (by simp)
    · rcases List.mem_cons.mp hi with rfl | hi
      · exact Nat.le_refl _
      · exact List.rel_of_pairwise_cons (List.pairwise_append.mp sorted).2.1 hi
  exact ⟨j, last, h.tracks.owner j hj i mem same, (h.tracks.verify_iff later).mpr
    ⟨j, last, rfl, Nat.lt_of_lt_of_le valid (Nat.add_le_add_right not_older ttl)⟩⟩

/-- The last issue to an account is the last one of its token. -/
lemma Tracks.lastOf?_of_lastFor? (h : Tracks ttl issued time s) (last : lastFor? issued id = some i) :
    lastOf? issued i.token.value = some i := by
  have mine := (lastFor?_mem last).2
  obtain ⟨-, newer, older, rfl, others⟩ := List.find?_eq_some_iff_append.mp last
  refine List.find?_eq_some_iff_append.mpr ⟨by simp, newer, older, rfl, fun j hj => ?_⟩
  -- A name keeps its account, so a newer issue of it would be a newer issue to the account.
  have other : j.account.id ≠ id := by simpa using others j hj
  have different : j.token.value ≠ i.token.value := fun same =>
    other ((h.owner j (List.mem_append_left _ hj) i (List.mem_append_right _ List.mem_cons_self)
      same).trans mine)
  simpa using different

lemma Tracks.issue_renews (h : Tracks ttl issued time s) (later : time ≤ now)
    (last : lastFor? issued account.id = some i) (valid : now < i.token.validUntil) :
    (s.issue now fresh account).2 = ⟨i.token.value, now + ttl⟩ := by
  have lastOf := h.lastOf?_of_lastFor? last
  cases found : s.entry? i.token.value with
  | none =>
    have expired := h.dropped _ i lastOf found
    omega
  | some e =>
    obtain ⟨owner, until_⟩ := h.stored_as found lastOf
    have bound : s.valueOf? account.id = some i.token.value :=
      (h.inverse.bound _ _).mpr ⟨e, found, by rw [← owner, (lastFor?_mem last).2]⟩
    rw [issue_of_valid bound (isValid_iff.mpr ⟨e, found, until_ ▸ valid⟩), h.lifetime]

/-- After any calls a token stands for the account of the last issue that returned it, until the lifetime
from then has passed, and for no other account. An account whose last token is still valid is given
that one again, with no earlier end. Names and accounts are stored in pairs. -/
theorem stands_for_last_issue (h : Recorded ttl issued time s) (later : time ≤ now) :
    (∀ value account, (s.verify now value).2 = some account ↔
      ∃ i, lastOf? issued value = some i ∧ i.account = account ∧ now < i.time + ttl) ∧
    (∀ fresh account i, lastFor? issued account.id = some i → now < i.token.validUntil →
      (s.issue now fresh account).2.value = i.token.value ∧
        i.token.validUntil ≤ (s.issue now fresh account).2.validUntil) ∧
    (∀ value account, (s.verify now value).2 = some account →
      ∀ i ∈ issued, i.token.value = value → i.account.id = account.id) ∧
    s.Inverse ∧ (s.tokens.map (·.2.account.id)).Nodup := by
  have tracks := h.tracks
  refine ⟨fun _ _ => tracks.verify_iff later, fun fresh account i last valid => ?_,
    fun value account verified i hi same => ?_, tracks.inverse, tracks.inverse.nodup_owners⟩
  · rw [tracks.issue_renews later last valid, tracks.expiry i (lastFor?_mem last).1]
    have past := tracks.past i (lastFor?_mem last).1
    exact ⟨rfl, by dsimp only; omega⟩
  · obtain ⟨j, last, rfl, -⟩ := (tracks.verify_iff later).mp verified
    obtain ⟨hj, value⟩ := lastOf?_mem last
    exact tracks.owner i hi j hj (same.trans value.symm)

end Issues

/-- A token that was given again, to the account with another role, after which another one expired. -/
theorem stands_for_renewed_issue :
    let ada : Account := ⟨"ada", [], .nil⟩
    let admin : Account := ⟨"ada", ["admin"], List.pairwise_singleton ..⟩
    let bob : Account := ⟨"bob", [], .nil⟩
    let issued : List Issue :=
      [⟨30, admin, ⟨"a", 90⟩⟩, ⟨10, bob, ⟨"b", 70⟩⟩, ⟨0, ada, ⟨"a", 60⟩⟩]
    let s : TokenStore := ⟨60, [("a", ⟨admin, 90⟩)], [("ada", "a")]⟩
    Recorded 60 issued 70 s ∧ (s.verify 80 "a").2 = some admin ∧ (s.verify 80 "b").2 = none ∧
      (s.issue 80 "d" ada).2.value = "a" ∧ s.Inverse := by
  intro ada admin bob issued s
  have history : Recorded 60 issued 70 s :=
    @Recorded.verify 60 _ 30 70 _ "b"
      (@Recorded.issue 60 _ _ 30 _ "c" admin
        (@Recorded.issue 60 _ _ 10 _ "b" bob
          (@Recorded.issue 60 _ _ 0 _ "a" ada .start (by decide) (by decide))
          (by decide) (by decide))
        (by decide) (by decide))
      (by decide)
  obtain ⟨verify, issue, -, inverse, -⟩ := stands_for_last_issue history (by decide : 70 ≤ 80)
  refine ⟨history, (verify "a" admin).mpr ⟨_, rfl, rfl, by decide⟩, ?_,
    (issue "d" ada _ rfl (by decide)).1, inverse⟩
  refine Option.eq_none_iff_forall_ne_some.mpr fun account verified => ?_
  obtain ⟨i, last, -, valid⟩ := (verify "b" account).mp verified
  obtain rfl : (⟨10, bob, ⟨"b", 70⟩⟩ : Issue) = i := Option.some.inj last
  exact absurd valid (by decide)

end TokenStore
end Gateway
