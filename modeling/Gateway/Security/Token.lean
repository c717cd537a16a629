import Gateway.Account
import Gateway.Text.Base64

/-! Opaque tokens that stand for accounts. An account has at most one; issuing again while it is
valid extends its life. -/
namespace Gateway

/-- A token as it is shown to its owner. Times are in seconds. -/
structure Token where
  value : String
  validUntil : Nat
  deriving DecidableEq, Repr

structure TokenEntry where
  account : Account
  validUntil : Nat
  deriving DecidableEq

def unassign {α : Type} (l : List (String × α)) (k : String) : List (String × α) :=
  l.filter (·.1 ≠ k)

/-- Replace the value at a key, or add it. -/
def assign {α : Type} (l : List (String × α)) (k : String) (v : α) : List (String × α) :=
  unassign l k ++ [(k, v)]

@[simp] theorem lookup_unassign_self {α : Type} (l : List (String × α)) (k : String) :
    (unassign l k).lookup k = none := by
  simpa [unassign] using fun a _ _ h c => h c.symm

theorem lookup_unassign_of_ne {α : Type} (l : List (String × α)) {k m : String} (h : m ≠ k) :
    (unassign l k).lookup m = l.lookup m := by
  induction l with
  | nil => rfl
  | cons e r ih =>
    obtain ⟨a, b⟩ := e
    simp only [unassign, ne_eq, decide_not] at ih ⊢
    by_cases ha : a = k
    · have hm : (m == a) = false := by simpa [ha] using h
      simp only [ha, decide_true, Bool.not_true, Bool.false_eq_true, not_false_eq_true,
        List.filter_cons_of_neg, ih]
      rw [List.lookup_cons, ← ha, hm]
    · simp [ha, List.lookup_cons, ih]

@[simp] theorem lookup_assign_self {α : Type} (l : List (String × α)) (k : String) (v : α) :
    (assign l k v).lookup k = some v := by
  simp [assign, List.lookup_append]

theorem lookup_assign_of_ne {α : Type} (l : List (String × α)) {k m : String} (h : m ≠ k) (v : α) :
    (assign l k v).lookup m = l.lookup m := by
  have hk : (m == k) = false := by simpa using h
  simp [assign, List.lookup_append, lookup_unassign_of_ne l h, List.lookup_cons, hk]

/-- Tokens by value and, for each account, the value of its token. -/
structure TokenStore where
  ttl : Nat
  tokens : List (String × TokenEntry) := []
  byAccount : List (String × String) := []

namespace TokenStore

def size (s : TokenStore) : Nat := s.tokens.length

/-! Single steps on one of the two lists. Calls that run side by side interleave by them. -/

def entry? (s : TokenStore) (value : String) : Option TokenEntry := s.tokens.lookup value

/-- The value of an account's token, valid or not. -/
def valueOf? (s : TokenStore) (id : String) : Option String := s.byAccount.lookup id

def isValid (s : TokenStore) (now : Nat) (value : String) : Bool :=
  (s.entry? value).any fun e => e.validUntil > now

def insertToken (s : TokenStore) (value : String) (e : TokenEntry) : TokenStore :=
  { s with tokens := assign s.tokens value e }

def removeToken (s : TokenStore) (value : String) : TokenStore :=
  { s with tokens := unassign s.tokens value }

def bindAccount (s : TokenStore) (id value : String) : TokenStore :=
  { s with byAccount := assign s.byAccount id value }

/-- Forget that an account has a token, if it has that one. -/
def unbindAccount (s : TokenStore) (id value : String) : TokenStore :=
  if s.valueOf? id = some value then { s with byAccount := unassign s.byAccount id } else s

/-- Extend a token, unless it is not valid any more. -/
def refresh (s : TokenStore) (now : Nat) (value : String) (e : TokenEntry) : Option TokenStore :=
  if s.isValid now value then some (s.insertToken value e) else none

/-- The account of a token that is still valid. A token found expired is dropped. -/
def verify (s : TokenStore) (now : Nat) (value : String) : TokenStore × Option Account :=
  match s.entry? value with
  | none => (s, none)
  | some e =>
    if e.validUntil ≤ now then ((s.removeToken value).unbindAccount e.account.id value, none)
    else (s, some e.account)

/-- Give the account a new token. -/
def grant (s : TokenStore) (fresh : String) (e : TokenEntry) : TokenStore :=
  (s.insertToken fresh e).bindAccount e.account.id fresh

/-- Extend the account's valid token, or give it the fresh one. -/
def issue (s : TokenStore) (now : Nat) (fresh : String) (account : Account) :
    TokenStore × Token :=
  let e : TokenEntry := ⟨account, now + s.ttl⟩
  match s.valueOf? account.id with
  | none => (s.grant fresh e, ⟨fresh, e.validUntil⟩)
  | some value =>
    match s.refresh now value e with
    | some s => (s, ⟨value, e.validUntil⟩)
    | none => ((s.removeToken value).grant fresh e, ⟨fresh, e.validUntil⟩)

end TokenStore
end Gateway
