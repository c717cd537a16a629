import Gateway.Proofs.Route.Segments
import Gateway.Security.Authorizer

/-! What a list of permissions grants, read off the list as it is written. Names that no method can
have are left out of an entry, and an entry that is left without any grants every method. -/
namespace Gateway

/-- A method can have this name. -/
def IsMethodName (name : String) : Prop := name ≠ "" ∧ ∀ c ∈ name.toList, isTokenChar c = true

/-- The name in capitals. Letters beyond ASCII stay as they are. -/
def upperCase (name : String) : String := String.ofList (name.toList.map Char.toUpper)

lemma isTokenChar_of_letter {c : Char} (letter : c.isUpper = true ∨ c.isLower = true) :
    isTokenChar c = true := by
  change ((c.isUpper || c.isLower) || c.isDigit || _) = true
  rcases letter with upper | lower
  · simp [upper]
  · simp [lower]

lemma isTokenChar_toUpper (c : Char) : isTokenChar c.toUpper = isTokenChar c := by
  by_cases small : 'a'.val ≤ c.val ∧ c.val ≤ 'z'.val
  · have moved : c.toUpper = _ := dif_pos small
    have upper : 'A'.val ≤ c.toUpper.val ∧ c.toUpper.val ≤ 'Z'.val := by
      rw [moved]
      simp [UInt32.le_iff_toNat_le, UInt32.toNat_add] at small ⊢
      omega
    have lower : c.isLower = true :=
      Bool.and_eq_true_iff.mpr ⟨decide_eq_true small.1, decide_eq_true small.2⟩
    rw [isTokenChar_of_letter (.inl (decide_eq_true upper)), isTokenChar_of_letter (.inr lower)]
  · exact congrArg isTokenChar (dif_neg small)

variable {name : String} {names : List String} {m : Method}

/-- Letter case does not make a name one that a method can have. -/
lemma isMethodName_upperCase : IsMethodName (upperCase name) ↔ IsMethodName name := by
  have empty : upperCase name = "" ↔ name = "" := by
    simp only [← String.toList_eq_nil_iff, upperCase, String.toList_ofList, List.map_eq_nil_iff]
  rw [IsMethodName, IsMethodName, ne_eq, empty]
  simp only [upperCase, String.toList_ofList, List.forall_mem_map, isTokenChar_toUpper]

lemma Method.parse?_eq_some_iff : Method.parse? name = some m ↔ IsMethodName name ∧ name = m.name := by
  have proper : (name.toList ≠ [] ∧ name.toList.all isTokenChar = true) ↔ IsMethodName name := by
    simp only [IsMethodName, ne_eq, String.toList_eq_nil_iff, List.all_eq_true]
  obtain ⟨text⟩ := m
  rw [Method.parse?]
  split
  · next h => simp [proper.mp h]
  · next h => simp [mt proper.mpr h]

namespace Authorizer

lemma method?_eq_some_iff : method? name = some m ↔ IsMethodName name ∧ upperCase name = m.name := by
  rw [method?, Method.parse?_eq_some_iff, ← upperCase, isMethodName_upperCase]

lemma method?_eq_none_iff : method? name = none ↔ ¬IsMethodName name := by
  simp only [Option.eq_none_iff_forall_ne_some, ne_eq, method?_eq_some_iff]
  constructor
  · intro none proper
    exact none ⟨upperCase name⟩ ⟨proper, rfl⟩
  · intro improper m proper
    exact improper proper.1

lemma mem_parseMethods_iff :
    m ∈ (parseMethods names).1 ↔ ∃ n ∈ names, IsMethodName n ∧ upperCase n = m.name := by
  simp only [parseMethods, List.mem_filterMap, method?_eq_some_iff]

lemma parseMethods_eq_nil_iff : (parseMethods names).1 = [] ↔ ∀ n ∈ names, ¬IsMethodName n := by
  simp only [parseMethods, List.filterMap_eq_nil_iff, method?_eq_none_iff]

end Authorizer

/-- Callers have the roles of their account. Those without one have a role for themselves. -/
def Exchange.HasRole (x : Exchange) (role : String) : Prop :=
  (∃ a, x.account = some a ∧ role ∈ a.roles) ∨ x.account = none ∧ role = unauthenticatedRole

namespace PermissionEntry
variable {e : PermissionEntry} {x : Exchange}

/-- The paths of the entry and the exchange are from the root, the segments of the second one begin
with those of the first one, and the caller has the entry's role. -/
structure Applies (e : PermissionEntry) (x : Exchange) : Prop where
  rooted : e.path.toList.head? = some '/'
  fromRoot : x.path.toList.head? = some '/'
  below : segments e.path <+: segments x.path
  role : x.HasRole e.role

/-- The entry has the method's name in its list, in any letter case. -/
def Lists (e : PermissionEntry) (m : Method) : Prop :=
  ∃ n ∈ e.methods, IsMethodName n ∧ upperCase n = m.name

/-- The entry grants the exchange as it is written. An empty list stands for every method. -/
def Grants (e : PermissionEntry) (x : Exchange) : Prop :=
  e.Applies x ∧ (e.methods = [] ∨ e.Lists x.method)

/-- The entry lists something, but no method. -/
def IsUnreadable (e : PermissionEntry) : Prop :=
  e.methods ≠ [] ∧ ∀ n ∈ e.methods, ¬IsMethodName n

end PermissionEntry

namespace Authorizer
variable {entries : List PermissionEntry} {e : PermissionEntry} {x : Exchange} {p : Permission}

lemma mem_rolesOf_iff {role : String} : role ∈ rolesOf x ↔ x.HasRole role := by
  rw [rolesOf, Exchange.HasRole]
  cases x.account with
  | none => simp
  | some a => simp

lemma ofEntry_eq_some_iff : (Permission.ofEntry e).1 = some p ↔ e.path.toList.head? = some '/' ∧
    p = ⟨e.role, ⟨normalizePath e.path, .below⟩, (parseMethods e.methods).1⟩ := by
  unfold Permission.ofEntry parsePath Pattern.parse?
  by_cases rooted : e.path.toList.head? = some '/'
  · simp [rooted, eq_comm]
  · simp [rooted]

lemma covers_iff_segments (rooted : e.path.toList.head? = some '/') :
    (⟨normalizePath e.path, .below⟩ : Pattern).covers x.path = true ↔
      x.path.toList.head? = some '/' ∧ segments e.path <+: segments x.path := by
  rw [Pattern.covers_below_iff rfl, Pattern.isAbove_iff_segments rooted]

/-- What is made of an entry grants what the entry grants, and every method if none of the entry's can be
read. -/
lemma exists_grants_iff :
    (∃ p, (Permission.ofEntry e).1 = some p ∧ p.grants (rolesOf x) x = true) ↔
      e.Grants x ∨ e.Applies x ∧ e.IsUnreadable := by
  simp only [ofEntry_eq_some_iff]
  constructor
  · rintro ⟨_, ⟨rooted, rfl⟩, grants⟩
    simp only [Permission.grants, Bool.and_eq_true, Bool.or_eq_true, List.contains_iff_mem,
      List.isEmpty_iff, mem_rolesOf_iff, covers_iff_segments rooted] at grants
    obtain ⟨⟨role, fromRoot, below⟩, method⟩ := grants
    have applies : e.Applies x := ⟨rooted, fromRoot, below, role⟩
    rcases method with none | listed
    · by_cases empty : e.methods = []
      · exact .inl ⟨applies, .inl empty⟩
      · exact .inr ⟨applies, empty, parseMethods_eq_nil_iff.mp none⟩
    · exact .inl ⟨applies, .inr (mem_parseMethods_iff.mp listed)⟩
  · intro h
    have applies : e.Applies x := h.elim And.left And.left
    have method : (parseMethods e.methods).1 = [] ∨ x.method ∈ (parseMethods e.methods).1 := by
      rw [parseMethods_eq_nil_iff, mem_parseMethods_iff]
      rcases h with ⟨-, empty | listed⟩ | ⟨-, -, unreadable⟩
      · exact .inl (by simp [empty])
      · exact .inr listed
      · exact .inl unreadable
    refine ⟨_, ⟨applies.rooted, rfl⟩, ?_⟩
    simp only [Permission.grants, Bool.and_eq_true, Bool.or_eq_true, List.contains_iff_mem,
      List.isEmpty_iff, mem_rolesOf_iff, covers_iff_segments applies.rooted]
    exact ⟨⟨applies.role, applies.fromRoot, applies.below⟩, method⟩

/-- The list grants what is made of one of its entries. -/
lemma acl_isAllowed_eq_true_iff : (acl entries).1.isAllowed x = true ↔
    ∃ e ∈ entries, e.Grants x ∨ e.Applies x ∧ e.IsUnreadable := by
  simp only [acl, List.any_eq_true, List.mem_filterMap, List.mem_map, exists_exists_and_eq_and,
    ← exists_grants_iff]
  constructor
  · rintro ⟨p, ⟨e, mem, made⟩, grants⟩
    exact ⟨e, mem, p, made, grants⟩
  · rintro ⟨e, mem, p, made, grants⟩
    exact ⟨p, ⟨e, mem, made⟩, grants⟩

/-- An exchange is granted by an entry as it is written, or by one that applies and lists something, but
no method. Where no entry is of the second kind the list is in force as it is written, and an entry that
lists a method grants nothing else. -/
theorem acl_isAllowed_iff (entries : List PermissionEntry) (x : Exchange) :
    (acl entries).1.kind = .allower ∧
      ((acl entries).1.isAllowed x = true ↔
        (∃ e ∈ entries, e.Grants x) ∨ ∃ e ∈ entries, e.Applies x ∧ e.IsUnreadable) ∧
      ((∀ e ∈ entries, e.Applies x → ¬e.IsUnreadable) →
        ((acl entries).1.isAllowed x = true ↔ ∃ e ∈ entries, e.Grants x)) ∧
      ∀ before e after, entries = before ++ e :: after → (∃ n ∈ e.methods, IsMethodName n) →
        ¬e.Lists x.method → (acl entries).1.isAllowed x = (acl (before ++ after)).1.isAllowed x := by
  have apart : (acl entries).1.isAllowed x = true ↔
      (∃ e ∈ entries, e.Grants x) ∨ ∃ e ∈ entries, e.Applies x ∧ e.IsUnreadable := by
    simp only [acl_isAllowed_eq_true_iff, and_or_left, exists_or]
  refine ⟨rfl, apart, ?_, ?_⟩
  · intro readable
    refine apart.trans (or_iff_left ?_)
    rintro ⟨e, mem, applies, unreadable⟩
    exact readable e mem applies unreadable
  · rintro before e after rfl ⟨n, mem, named⟩ unlisted
    have nothing : ¬(e.Grants x ∨ e.Applies x ∧ e.IsUnreadable) := by
      rintro (⟨-, empty | listed⟩ | ⟨-, -, unreadable⟩)
      · exact List.ne_nil_of_mem mem empty
      · exact unlisted listed
      · exact unreadable n mem named
    rw [Bool.eq_iff_iff, acl_isAllowed_eq_true_iff, acl_isAllowed_eq_true_iff]
    simp only [List.mem_append, List.mem_cons, or_and_right, exists_or, exists_eq_left, nothing,
      false_or]

/-- A list of what is no method name lets every method through, with an alert as the only sign of it. One
name that is one keeps the others out. -/
theorem acl_grants_unlisted_method :
    let visit (m : Method) : Exchange := .ofRequest { method := m } {}
    let unreadable : PermissionEntry := ⟨unauthenticatedRole, "/", ["G T"]⟩
    let readable : PermissionEntry := ⟨unauthenticatedRole, "/", ["G T", "Get"]⟩
    ((acl [unreadable]).1.isAllowed (visit .delete) = true ∧ ¬unreadable.Grants (visit .delete) ∧
        (acl [unreadable]).2 = [.warning "Ignoring invalid HTTP method"]) ∧
      (acl [readable]).1.isAllowed (visit .get) = true ∧
      (acl [readable]).1.isAllowed (visit .delete) = false := by
  intro visit unreadable readable
  have applies (m : Method) (e : PermissionEntry) (path : e.path = "/")
      (role : e.role = unauthenticatedRole) : e.Applies (visit m) := by
    have root : (visit m).path = "/" := rfl
    have rooted : "/".toList.head? = some '/' := by decide
    have same : segments e.path = segments (visit m).path := by rw [path, root]
    exact ⟨path ▸ rooted, root ▸ rooted, same ▸ List.prefix_rfl, .inr ⟨rfl, role⟩⟩
  have noName : ¬IsMethodName "G T" := by
    rintro ⟨-, chars⟩
    exact absurd (chars ' ' (by decide)) (by decide)
  have chars : "Get".toList.all isTokenChar = true := by decide
  have name : IsMethodName "Get" := ⟨by decide, List.all_eq_true.mp chars⟩
  have unlisted : ¬readable.Lists .delete := by
    rintro ⟨n, mem, -, same⟩
    revert n
    decide
  refine ⟨⟨?_, ?_, by decide⟩, ?_, ?_⟩
  · refine (acl_isAllowed_iff [unreadable] (visit .delete)).2.1.mpr (.inr ⟨unreadable, ?_⟩)
    simpa [PermissionEntry.IsUnreadable, unreadable, noName] using applies .delete unreadable rfl rfl
  · rintro ⟨-, empty | ⟨n, mem, named, -⟩⟩
    · cases empty
    · obtain rfl := List.mem_singleton.mp mem
      exact noName named
  · refine ((acl_isAllowed_iff [readable] (visit .get)).2.2.1 ?_).mpr ⟨readable, ?_⟩
    · intro e mem _ bad
      obtain rfl := List.mem_singleton.mp mem
      exact bad.2 "Get" (by simp [readable]) name
    · have listed : readable.Lists .get := ⟨"Get", by simp [readable], name, by decide⟩
      exact ⟨List.mem_singleton_self _, applies .get readable rfl rfl, .inr listed⟩
  · exact (acl_isAllowed_iff [readable] (visit .delete)).2.2.2 [] readable [] rfl
      ⟨"Get", by simp [readable], name⟩ unlisted

/-- The list is taken without an alert if every path is from the root and every listed name is one for a
method. -/
lemma acl_alerts_eq_nil_iff : (acl entries).2 = [] ↔
    ∀ e ∈ entries, e.path.toList.head? = some '/' ∧ ∀ n ∈ e.methods, IsMethodName n := by
  have quiet (e : PermissionEntry) : (Permission.ofEntry e).2 = [] ↔
      e.path.toList.head? = some '/' ∧ ∀ n ∈ e.methods, IsMethodName n := by
    unfold Permission.ofEntry parsePath Pattern.parse?
    by_cases rooted : e.path.toList.head? = some '/'
    · simp [rooted, parseMethods, List.filter_eq_nil_iff, method?_eq_none_iff]
    · simp [rooted]
  simp only [acl, List.flatMap_eq_nil_iff, List.forall_mem_map, quiet]

/-- What is taken without an alert is in force as it is written. -/
theorem acl_of_no_alerts (quiet : (acl entries).2 = []) :
    (acl entries).1.isAllowed x = true ↔ ∃ e ∈ entries, e.Grants x := by
  rw [acl_isAllowed_eq_true_iff]
  refine exists_congr fun e => and_congr_right fun mem => or_iff_left ?_
  rintro ⟨-, some, unreadable⟩
  obtain ⟨n, listed⟩ := List.exists_mem_of_ne_nil _ some
  exact unreadable n listed ((acl_alerts_eq_nil_iff.mp quiet e mem).2 n listed)

end Authorizer
end Gateway
