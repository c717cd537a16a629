import Mathlib.Data.List.Nodup
import Gateway.Proofs.Job.Handler
import Gateway.Proofs.Security.Chain
import Gateway.Proofs.Text.Base64
import Gateway.Proofs.Text.Listing
import Gateway.Proofs.Text.Printable

/-! Credentials of a request. What stands in the first authorization header is taken apart exactly as it is put
together: the scheme, the blanks, Base64, name and password. -/
namespace Gateway

namespace Mechanism
variable {c : Char} {cs before rest : List Char} {x : Exchange} {scheme value credentials : String}
  {users : List UserEntry}

lemma splitAtFirst_eq_some_iff :
    splitAtFirst c cs = some (before, rest) ↔ cs = before ++ c :: rest ∧ c ∉ before := by
  unfold splitAtFirst
  constructor
  · intro h
    split at h
    · cases h
    · next d tail found =>
      obtain ⟨rfl, rfl⟩ := Prod.mk.inj (Option.some.inj h)
      have first := List.head?_dropWhile_not (fun d => decide (d ≠ c)) cs
      rw [found] at first
      obtain rfl : d = c := by simpa using first
      have whole := List.takeWhile_append_dropWhile (p := fun e => decide (e ≠ d)) (l := cs)
      rw [found] at whole
      exact ⟨whole.symm, fun member => by simpa using List.all_eq_true.mp List.all_takeWhile d member⟩
  · rintro ⟨rfl, fresh⟩
    have other : ∀ d ∈ before, decide (d ≠ c) = true := fun d hd =>
      decide_eq_true fun same => fresh (same ▸ hd)
    rw [List.dropWhile_append_of_pos other, List.takeWhile_append_of_pos other]
    simp

/-- The value is the scheme in any case, a blank, and the rest. -/
def HasScheme (scheme value rest : String) : Prop :=
  ∃ given, value = given ++ " " ++ rest ∧ given.toList.map Char.toLower = scheme.toList.map Char.toLower

/-- The text is made of blanks. -/
def IsBlankText (s : String) : Prop := ∀ c ∈ s.toList, isBlank c = true

/-- The first authorization header of the request names the scheme. -/
def Attempts (x : Exchange) (scheme : String) : Prop :=
  ∃ value rest, x.headers.firstText? "authorization" = some value ∧ HasScheme scheme value rest

/-- The first authorization header of the request has the credentials behind the scheme, in blanks. -/
def Offers (x : Exchange) (scheme credentials : String) : Prop :=
  ∃ value left right, x.headers.firstText? "authorization" = some value ∧
    HasScheme scheme value (left ++ credentials ++ right) ∧ IsBlankText left ∧ IsBlankText right

lemma HasScheme.toList {rest : String} (h : HasScheme scheme value rest)
    (noBlank : ' ' ∉ scheme.toList.map Char.toLower) : ∃ given, value.toList = given ++ ' ' :: rest.toList ∧
      given.map Char.toLower = scheme.toList.map Char.toLower ∧ ' ' ∉ given := by
  obtain ⟨given, rfl, same⟩ := h
  refine ⟨given.toList, by simp, same, fun member => noBlank ?_⟩
  rw [← same]
  exact List.mem_map.mpr ⟨' ', member, rfl⟩

lemma credentialsIn?_eq_some_iff (noBlank : ' ' ∉ scheme.toList.map Char.toLower) :
    credentialsIn? scheme value = some credentials ↔
      ∃ rest, HasScheme scheme value rest ∧ String.ofList (trimBlanks rest.toList) = credentials := by
  constructor
  · intro h
    unfold credentialsIn? at h
    split at h
    · next given rest found =>
      obtain ⟨whole, -⟩ := splitAtFirst_eq_some_iff.mp found
      obtain ⟨same, found⟩ := Option.ite_none_right_eq_some.mp h
      refine ⟨String.ofList rest, ⟨String.ofList given, ?_, by rwa [String.toList_ofList]⟩, ?_⟩
      · exact String.toList_injective (by simp [whole])
      · rw [String.toList_ofList]
        exact Option.some.inj found
    · cases h
  · rintro ⟨rest, named, rfl⟩
    obtain ⟨given, whole, same, fresh⟩ := named.toList noBlank
    rw [credentialsIn?, splitAtFirst_eq_some_iff.mpr ⟨whole, fresh⟩]
    exact if_pos same

lemma credentials?_eq_none_iff (noBlank : ' ' ∉ scheme.toList.map Char.toLower) :
    credentials? x scheme = none ↔ ¬Attempts x scheme := by
  rw [← not_iff_not, not_not, ← Ne, Option.ne_none_iff_exists']
  constructor
  · rintro ⟨c, found⟩
    obtain ⟨value, first, found⟩ := Option.bind_eq_some_iff.mp found
    obtain ⟨rest, named, -⟩ := (credentialsIn?_eq_some_iff noBlank).mp found
    exact ⟨value, rest, first, named⟩
  · rintro ⟨value, rest, first, named⟩
    have found := (credentialsIn?_eq_some_iff noBlank).mpr ⟨rest, named, rfl⟩
    exact ⟨_, Option.bind_eq_some_iff.mpr ⟨value, first, found⟩⟩

/-- Credentials without blanks in them are found exactly if the request offers them. -/
lemma credentials?_eq_some_iff (noBlank : ' ' ∉ scheme.toList.map Char.toLower)
    (bare : ∀ c ∈ credentials.toList, isBlank c = false) :
    credentials? x scheme = some credentials ↔ Offers x scheme credentials := by
  simp only [credentials?, Option.bind_eq_some_iff, credentialsIn?_eq_some_iff noBlank]
  constructor
  · rintro ⟨value, first, rest, named, trimmed⟩
    obtain ⟨left, right, whole, before, after⟩ := HopByHop.exists_blanks rest.toList
    refine ⟨value, String.ofList left, String.ofList right, first, ?_,
      by rwa [IsBlankText, String.toList_ofList], by rwa [IsBlankText, String.toList_ofList]⟩
    have same : rest = String.ofList left ++ credentials ++ String.ofList right := by
      apply String.toList_injective
      rw [whole, ← trimmed]
      simp
      rfl
    rwa [← same]
  · rintro ⟨value, left, right, first, named, before, after⟩
    refine ⟨value, first, _, named, ?_⟩
    have trimmed : trimBlanks (left.toList ++ credentials.toList ++ right.toList) = credentials.toList :=
      HopByHop.trimBlanks_padded before after bare
    rw [String.toList_append, String.toList_append, trimmed, String.ofList_toList]

/-- The credentials of a user: name and password, with a colon between them, in Base64. -/
def basicCredentials (userid password : String) : String :=
  Base64.encode (Bytes.ofText (userid ++ ":" ++ password))

lemma basicCredentials_bare (userid password : String) :
    ∀ c ∈ (basicCredentials userid password).toList, isBlank c = false :=
  Base64.forall_mem_encode (by decide) (by decide +kernel) _

/-- Credentials are read as name and password exactly if they are those of the two. The name ends before the first
colon. -/
lemma userAndPassword?_eq_some_iff {userid password : String} :
    userAndPassword? credentials = some (userid, password) ↔
      ':' ∉ userid.toList ∧ credentials = basicCredentials userid password := by
  have read : userAndPassword? credentials = some (userid, password) ↔
      ∃ bytes, Base64.decode credentials = some bytes ∧ ∃ text, Bytes.text? bytes = some text ∧
        splitAtFirst ':' text.toList = some (userid.toList, password.toList) := by
    simp only [userAndPassword?, Option.bind_eq_bind, Option.bind_eq_some_iff, Option.pure_def, Option.some.injEq,
      Prod.exists, Prod.mk.injEq]
    refine exists_congr fun bytes => and_congr_right fun _ => exists_congr fun text => and_congr_right fun _ => ?_
    constructor
    · rintro ⟨before, rest, split, rfl, rfl⟩
      rwa [String.toList_ofList, String.toList_ofList]
    · intro split
      exact ⟨_, _, split, String.ofList_toList, String.ofList_toList⟩
  rw [read]
  constructor
  · rintro ⟨bytes, decoded, text, read, split⟩
    obtain ⟨whole, fresh⟩ := splitAtFirst_eq_some_iff.mp split
    have same : text = userid ++ ":" ++ password := String.toList_injective (by simp [whole])
    rw [basicCredentials, ← same, Bytes.ofText_of_text? read]
    exact ⟨fresh, Base64.decode_eq_some_iff.mp decoded⟩
  · rintro ⟨fresh, rfl⟩
    exact ⟨_, Base64.decode_eq_some_iff.mpr rfl, _, Bytes.text?_ofText _,
      splitAtFirst_eq_some_iff.mpr ⟨by simp, fresh⟩⟩

/-- Names of users are told apart. -/
lemma findUser_eq_some_iff (distinct : (users.map (·.userid)).Nodup) {userid : String} {u : UserEntry} :
    findUser users userid = some u ↔ u ∈ users ∧ u.userid = userid := by
  constructor
  · intro h
    exact ⟨List.mem_reverse.mp (List.mem_of_find?_eq_some h), by simpa using List.find?_some h⟩
  · rintro ⟨member, rfl⟩
    obtain ⟨other, found⟩ : ∃ other, findUser users u.userid = some other := by
      rw [← Option.isSome_iff_exists, findUser, List.find?_isSome]
      exact ⟨u, List.mem_reverse.mpr member, by simp⟩
    have name : other.userid = u.userid := by simpa using List.find?_some found
    have listed : other ∈ users := List.mem_reverse.mp (List.mem_of_find?_eq_some found)
    rw [found, List.inj_on_of_nodup_map distinct listed member name]

/-- The users whose names can stand in credentials, told apart by their names. -/
structure WellNamed (users : List UserEntry) : Prop where
  distinct : (users.map (·.userid)).Nodup
  noColon : ∀ u ∈ users, ':' ∉ u.userid.toList

/-- The account of a user is granted for exactly the credentials of that user. -/
theorem verifyBasic_eq_authenticated_iff (named : WellNamed users) {a : Account} :
    verifyBasic users credentials = .authenticated a ↔
      ∃ u ∈ users, a = .withRoles u.userid u.roles ∧ credentials = basicCredentials u.userid u.password := by
  constructor
  · intro h
    unfold verifyBasic at h
    split at h
    · cases h
    · next userid password read =>
      obtain ⟨-, whole⟩ := userAndPassword?_eq_some_iff.mp read
      split at h
      · next u found =>
        obtain ⟨member, rfl⟩ := (findUser_eq_some_iff named.distinct).mp found
        split at h
        · next same =>
          cases h
          exact ⟨u, member, rfl, same ▸ whole⟩
        · cases h
      · cases h
  · rintro ⟨u, member, rfl, whole⟩
    have read := userAndPassword?_eq_some_iff.mpr ⟨named.noColon u member, whole⟩
    have found := (findUser_eq_some_iff named.distinct).mpr ⟨member, rfl⟩
    simp only [verifyBasic, read, found, if_true]

lemma verifyBasic_ne_notAttempted : verifyBasic users credentials ≠ .notAttempted := by
  unfold verifyBasic
  split
  · nofun
  · split
    · split <;> nofun
    · nofun

end Mechanism
end Gateway
