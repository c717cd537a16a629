/-! Authenticated callers and their roles. -/
namespace Gateway

/-- Put a text into an increasing list, unless it is there. -/
def insertSorted (s : String) : List String → List String
  | [] => [s]
  | t :: r => if s < t then s :: t :: r else if s = t then t :: r else t :: insertSorted s r

theorem mem_insertSorted {s t : String} {l : List String} :
    t ∈ insertSorted s l ↔ t = s ∨ t ∈ l := by
  induction l with
  | nil => simp [insertSorted]
  | cons a r ih =>
    simp only [insertSorted]
    split
    · simp
    · split
      · rename_i h; subst h; simp
      · simp only [List.mem_cons, ih]; grind

theorem pairwise_insertSorted {s : String} {l : List String} (h : l.Pairwise (· < ·)) :
    (insertSorted s l).Pairwise (· < ·) := by
  induction l with
  | nil => simp [insertSorted]
  | cons a r ih =>
    have hr := List.pairwise_cons.1 h
    simp only [insertSorted]
    split
    · rename_i hs
      exact List.pairwise_cons.2 ⟨fun b hb => by
        rcases List.mem_cons.1 hb with rfl | hb
        · exact hs
        · exact String.lt_trans hs (hr.1 b hb), h⟩
    · split
      · exact h
      · rename_i hs hne
        refine List.pairwise_cons.2 ⟨fun b hb => ?_, ih hr.2⟩
        rcases mem_insertSorted.1 hb with rfl | hb
        · have hle : a ≤ b := String.not_lt.1 hs
          exact Std.lt_of_le_of_ne hle fun e => hne e.symm
        · exact hr.1 b hb

/-- An authenticated caller. Roles are distinct and in order. -/
structure Account where
  id : String
  roles : List String
  sorted : roles.Pairwise (· < ·)
  deriving DecidableEq

namespace Account

def sortRoles (roles : List String) : List String := roles.foldr insertSorted []

theorem sortRoles_pairwise (roles : List String) : (sortRoles roles).Pairwise (· < ·) := by
  induction roles with
  | nil => simp [sortRoles]
  | cons r rs ih => exact pairwise_insertSorted ih

theorem mem_sortRoles {r : String} {roles : List String} : r ∈ sortRoles roles ↔ r ∈ roles := by
  induction roles with
  | nil => simp [sortRoles]
  | cons a rs ih => simpa [sortRoles, mem_insertSorted] using or_congr_right ih

/-- The account with these roles, however they are listed. -/
def withRoles (id : String) (roles : List String) : Account :=
  ⟨id, sortRoles roles, sortRoles_pairwise roles⟩

def hasRole (a : Account) (role : String) : Bool := a.roles.contains role

/-- Roles joined by commas. -/
def rolesText (a : Account) : String := ",".intercalate a.roles

end Account
end Gateway
