import Mathlib.Data.List.Nodup
import Gateway.Proofs.Route.Path
import Gateway.Proofs.Route.Registry

/-! Resolution as it is meant: a route for exactly the path, else the longest pattern above it, and of
equal patterns the one that was registered first. -/
namespace Gateway

attribute [ext] Pattern

/-- One call that binds a pipeline to a pattern. -/
structure Registration where
  pattern : String
  policy : MatchPolicy
  pipeline : Pipeline
  kind : RouteKind := .service
  secured : Bool := false
  name : String := "x"

namespace Registration

/-- The route that is asked for, if the pattern is valid. -/
def route? (c : Registration) : Option Route :=
  (Pattern.parse? c.pattern c.policy).map fun p => ⟨p, c.name, c.kind, c.secured, c.pipeline⟩

/-- The routes that are asked for, in order. -/
def routes (calls : List Registration) : List Route := calls.filterMap route?

end Registration

/-- The first of the routes that has a property. -/
def IsFirst (routes : List Route) (P : Route → Prop) (route : Route) : Prop :=
  ∃ before after, routes = before ++ route :: after ∧ P route ∧ ∀ other ∈ before, ¬P other

namespace IsFirst
variable {routes more : List Route} {P : Route → Prop} {route other : Route}

lemma mem (h : IsFirst routes P route) : route ∈ routes := by
  obtain ⟨before, after, rfl, -, -⟩ := h
  exact List.mem_append_right _ List.mem_cons_self

lemma holds (h : IsFirst routes P route) : P route := by
  obtain ⟨-, -, -, h, -⟩ := h
  exact h

lemma append (h : IsFirst routes P route) (more : List Route) : IsFirst (routes ++ more) P route := by
  obtain ⟨before, after, rfl, hP, no⟩ := h
  exact ⟨before, after ++ more, by simp, hP, no⟩

lemma append_singleton (hP : P route) (no : ∀ other ∈ routes, ¬P other) :
    IsFirst (routes ++ [route]) P route :=
  ⟨routes, [], rfl, hP, no⟩

lemma iff_find? {p : Route → Bool} (hp : ∀ x, p x = true ↔ P x) :
    IsFirst routes P route ↔ routes.find? p = some route := by
  simp only [List.find?_eq_some_iff_append, IsFirst, ← hp, Bool.not_eq_true, Bool.not_eq_true']
  constructor
  · rintro ⟨before, after, e, h, no⟩
    exact ⟨h, before, after, e, no⟩
  · rintro ⟨h, before, after, e, no⟩
    exact ⟨before, after, e, h, no⟩

theorem unique (h : IsFirst routes P route) (g : IsFirst routes P other) : route = other := by
  classical
  have hp (x : Route) : decide (P x) = true ↔ P x := decide_eq_true_iff
  exact Option.some.inj (((iff_find? hp).mp h).symm.trans ((iff_find? hp).mp g))

/-- The only route with a property is the first. -/
lemma of_unique (hm : route ∈ routes) (hP : P route) (h : ∀ other ∈ routes, P other → other = route) :
    IsFirst routes P route := by
  obtain ⟨before, after, rfl, no⟩ := List.eq_append_cons_of_mem hm
  refine ⟨before, after, rfl, hP, fun other ho hPo => ?_⟩
  rw [h other (List.mem_append_left _ ho) hPo] at ho
  exact no ho

end IsFirst

/-- The route is for exactly the path. -/
def Route.IsFor (path : String) (route : Route) : Prop :=
  route.pattern.policy = .exact ∧ route.pattern.text = normalizePath path

/-- The route is for what is below a pattern above the path. -/
def Route.IsAbove (path : String) (route : Route) : Prop :=
  route.pattern.policy = .below ∧ Pattern.IsAbove route.pattern.text path

/-- No pattern above the path is longer than the route's. -/
def Route.IsLongest (routes : List Route) (path : String) (route : Route) : Prop :=
  route.IsAbove path ∧ ∀ other ∈ routes, other.IsAbove path →
    other.pattern.text.utf8ByteSize ≤ route.pattern.text.utf8ByteSize

/-- Where a path leads to, by the routes in the order in which they were asked for. -/
inductive Resolves (routes : List Route) (path : String) : Option Route → Prop where
  | exact {route : Route} (h : IsFirst routes (Route.IsFor path) route) :
      Resolves routes path (some route)
  | below {route : Route} (no : ∀ other ∈ routes, ¬other.IsFor path)
      (h : IsFirst routes (Route.IsLongest routes path) route) : Resolves routes path (some route)
  | nowhere (no : ∀ other ∈ routes, ¬other.IsFor path)
      (above : ∀ other ∈ routes, ¬other.IsAbove path) : Resolves routes path none

namespace Resolves
variable {routes more : List Route} {path : String} {o q : Option Route}

theorem unique (h : Resolves routes path o) (g : Resolves routes path q) : o = q := by
  cases h with
  | exact h =>
    cases g with
    | exact g => rw [h.unique g]
    | below no _ => exact absurd h.holds (no _ h.mem)
    | nowhere no _ => exact absurd h.holds (no _ h.mem)
  | below no h =>
    cases g with
    | exact g => exact absurd g.holds (no _ g.mem)
    | below _ g => rw [h.unique g]
    | nowhere _ above => exact absurd h.holds.1 (above _ h.mem)
  | nowhere no above =>
    cases g with
    | exact g => exact absurd g.holds (no _ g.mem)
    | below _ g => exact absurd g.holds.1 (above _ g.mem)
    | nowhere _ _ => rfl

/-- When no two routes have one pattern, their order does not matter. -/
theorem perm (h : Resolves routes path o) (order : routes.Perm more)
    (distinct : (routes.map (·.pattern)).Nodup) : Resolves more path o := by
  have same {x y : Route} (hx : x ∈ routes) (hy : y ∈ routes) (e : x.pattern = y.pattern) : x = y :=
    List.inj_on_of_nodup_map distinct hx hy e
  have none_of {P : Route → Prop} (no : ∀ other ∈ routes, ¬P other) : ∀ other ∈ more, ¬P other :=
    fun other ho => no other (order.mem_iff.mpr ho)
  cases h with
  | exact h =>
    refine .exact (.of_unique (order.mem_iff.mp h.mem) h.holds fun other ho hP => ?_)
    refine same (order.mem_iff.mpr ho) h.mem (Pattern.ext ?_ ?_)
    · rw [hP.2, h.holds.2]
    · rw [hP.1, h.holds.1]
  | below no h =>
    have longest (x : Route) : x.IsLongest more path ↔ x.IsLongest routes path := by
      simp only [Route.IsLongest, order.mem_iff]
    refine .below (none_of no) (.of_unique (order.mem_iff.mp h.mem) ((longest _).mpr h.holds)
      fun other ho hP => ?_)
    have ho := order.mem_iff.mpr ho
    have hP := (longest _).mp hP
    have size := Nat.le_antisymm (h.holds.2 _ ho hP.1) (hP.2 _ h.mem h.holds.1)
    refine same ho h.mem (Pattern.ext (hP.1.2.eq_of_size h.holds.1.2 size) ?_)
    rw [hP.1.1, h.holds.1.1]
  | nowhere no above => exact .nowhere (none_of no) (none_of above)

end Resolves

namespace Registry
variable {a : Assembly} {r : Registry} {routes list : List Route} {route : Route} {path : String}
  {policy : MatchPolicy}

/-- Make a call. One that fails is of no consequence. -/
def enter (r : Registry) (c : Registration) : Registry :=
  match (r.register c.pattern c.policy c.pipeline c.kind c.secured c.name).1 with
  | .ok s => s
  | .error _ => r

/-- The list has the first route of every pattern among those of one policy. -/
structure Collects (policy : MatchPolicy) (routes list : List Route) : Prop where
  first : ∀ x ∈ list, IsFirst routes
    (fun y => y.pattern.policy = policy ∧ y.pattern.text = x.pattern.text) x
  all : ∀ y ∈ routes, y.pattern.policy = policy → Holds list y

lemma Collects.nil : Collects policy [] [] := ⟨nofun, nofun⟩

/-- A route that is not of the policy, or whose pattern is held already, adds nothing. -/
lemma Collects.skip (h : Collects policy routes list)
    (skipped : route.pattern.policy = policy → Holds list route) :
    Collects policy (routes ++ [route]) list where
  first x hx := (h.first x hx).append _
  all y hy hp := by
    rcases List.mem_append.mp hy with hy | hy
    · exact h.all y hy hp
    · obtain rfl := List.mem_singleton.mp hy
      exact skipped hp

lemma Collects.add (h : Collects policy routes list) (hp : route.pattern.policy = policy)
    (free : ¬Holds list route) : Collects policy (routes ++ [route]) (list ++ [route]) where
  first x hx := by
    rcases List.mem_append.mp hx with hx | hx
    · exact (h.first x hx).append _
    · obtain rfl := List.mem_singleton.mp hx
      refine .append_singleton ⟨hp, rfl⟩ fun y hy ⟨hy_policy, text⟩ => free ?_
      obtain ⟨z, hz, hzy⟩ := h.all y hy hy_policy
      exact ⟨z, hz, hzy.trans text⟩
  all y hy hy_policy := by
    rcases List.mem_append.mp hy with hy | hy
    · obtain ⟨z, hz, hzy⟩ := h.all y hy hy_policy
      exact ⟨z, List.mem_append_left _ hz, hzy⟩
    · obtain rfl := List.mem_singleton.mp hy
      exact ⟨y, List.mem_append_right _ List.mem_cons_self, rfl⟩

/-- An open registry has the first route of every pattern that was asked for. -/
structure Open (a : Assembly) (routes : List Route) (r : Registry) : Prop where
  assembly : r.assembly = a
  table : r.table = none
  exact : Collects .exact routes r.exact
  below : Collects .below routes r.below

lemma enter_invalid {c : Registration} (h : c.route? = none) : r.enter c = r := by
  have hp : Pattern.parse? c.pattern c.policy = none := Option.map_eq_none_iff.mp h
  unfold enter register parsePattern
  rw [hp]
  cases r.table <;> rfl

lemma enter_valid {c : Registration} (h : c.route? = some route) :
    r.enter c = match (r.bind route).1 with
      | .ok s => s
      | .error _ => r := by
  obtain ⟨p, hp, rfl⟩ := Option.map_eq_some_iff.mp h
  unfold enter register parsePattern
  rw [hp]
  cases ht : r.table with
  | none => rfl
  | some t =>
    rw [bind_frozen (by rw [ht]; rfl)]
    rfl

/-- A call keeps the first routes, whatever comes of it. -/
theorem Open.enter (h : Open a routes r) (c : Registration) :
    Open a (routes ++ c.route?.toList) (r.enter c) := by
  cases hc : c.route? with
  | none =>
    rw [enter_invalid hc, Option.toList_none, List.append_nil]
    exact h
  | some route =>
    rw [enter_valid hc, Option.toList_some]
    rcases bind_cases route [] h.table with
      ⟨policy, held, e⟩ | ⟨policy, free, e⟩ | ⟨policy, held, e⟩ | ⟨policy, free, e⟩
    all_goals rw [e]
    · exact { h with
        exact := h.exact.skip fun _ => held
        below := h.below.skip fun other => by cases policy.symm.trans other }
    · exact {
        assembly := h.assembly
        table := h.table
        exact := h.exact.add policy free
        below := h.below.skip fun other => by cases policy.symm.trans other }
    · exact { h with
        exact := h.exact.skip fun other => by cases policy.symm.trans other
        below := h.below.skip fun _ => held }
    · exact {
        assembly := h.assembly
        table := h.table
        exact := h.exact.skip fun other => by cases policy.symm.trans other
        below := h.below.add policy free }

/-- The registry that some calls make. -/
def enterAll (r : Registry) (calls : List Registration) : Registry := calls.foldl enter r

theorem Open.enterAll (h : Open a routes r) (calls : List Registration) :
    Open a (routes ++ Registration.routes calls) (r.enterAll calls) := by
  induction calls generalizing r routes with
  | nil =>
    rw [Registration.routes, List.filterMap_nil, List.append_nil]
    exact h
  | cons c rest ih =>
    have split : Registration.routes (c :: rest) = c.route?.toList ++ Registration.routes rest := by
      rw [Registration.routes, List.filterMap_cons]
      cases c.route? <;> rfl
    rw [split, ← List.append_assoc]
    exact ih (h.enter c)

lemma pairwise_mergeSort (list : List Route) : (list.mergeSort RoutingTable.isLonger).Pairwise
    fun x y => y.pattern.text.utf8ByteSize ≤ x.pattern.text.utf8ByteSize := by
  have sorted : (list.mergeSort RoutingTable.isLonger).Pairwise fun x y =>
      RoutingTable.isLonger x y = true := by
    apply List.pairwise_mergeSort
    · intro x y z hxy hyz
      simp only [RoutingTable.isLonger, decide_eq_true_eq] at *
      omega
    · intro x y
      simp only [RoutingTable.isLonger, Bool.or_eq_true, decide_eq_true_eq]
      omega
  exact sorted.imp of_decide_eq_true

lemma Collects.covers_iff (h : Collects .below routes list) {x : Route} (hx : x ∈ list) :
    x.pattern.covers path = true ↔ x.IsAbove path := by
  have policy := (h.first x hx).holds.1
  rw [Pattern.covers_below_iff policy, Route.IsAbove, and_iff_right policy]

/-- Sorted by length, the first pattern above a path is the longest of all. -/
lemma Collects.longest (h : Collects .below routes list)
    (found : (list.mergeSort RoutingTable.isLonger).find? (fun x => x.pattern.covers path) =
      some route) : route ∈ list ∧ route.IsLongest routes path := by
  obtain ⟨covers, before, after, e, no⟩ := List.find?_eq_some_iff_append.mp found
  have mem (x : Route) : x ∈ list ↔ x ∈ before ++ route :: after := by
    rw [← e, List.mem_mergeSort]
  have hm : route ∈ list := (mem route).mpr (List.mem_append_right _ List.mem_cons_self)
  refine ⟨hm, (h.covers_iff hm).mp covers, fun other ho above => ?_⟩
  obtain ⟨x, hx, text⟩ := h.all other ho above.1
  have hx_above : x.pattern.covers path = true :=
    (h.covers_iff hx).mpr ⟨(h.first x hx).holds.1, text ▸ above.2⟩
  rw [← text]
  rcases List.mem_append.mp ((mem x).mp hx) with hb | hb
  · have := no x hb
    rw [hx_above] at this
    cases this
  · rcases List.mem_cons.mp hb with rfl | ha
    · exact Nat.le_refl _
    · have sorted := pairwise_mergeSort list
      rw [e] at sorted
      exact (List.pairwise_cons.mp (List.pairwise_append.mp sorted).2.1).1 x ha

lemma Collects.isFirst_longest (h : Collects .below routes list)
    (found : (list.mergeSort RoutingTable.isLonger).find? (fun x => x.pattern.covers path) =
      some route) : IsFirst routes (Route.IsLongest routes path) route := by
  obtain ⟨hm, longest⟩ := h.longest found
  have first := h.first route hm
  have mem := first.mem
  obtain ⟨before, after, e, -, no⟩ := first
  refine ⟨before, after, e, longest, fun other ho hl => no other ho ⟨hl.1.1, ?_⟩⟩
  have other_mem : other ∈ routes := by
    rw [e]
    exact List.mem_append_left _ ho
  have size := Nat.le_antisymm (longest.2 other other_mem hl.1) (hl.2 route mem longest.1)
  exact hl.1.2.eq_of_size longest.1.2 size

/-- A frozen registry resolves paths by the routes that were asked for. -/
theorem Open.resolves (h : Open a routes r) (path : String) :
    Resolves routes path (r.freeze.2.1.resolve path) := by
  have table : r.freeze.2.1 = .ofRoutes r.exact r.below r.assembly.notManaged := by
    unfold freeze
    rw [h.table]
  rw [table]
  unfold RoutingTable.resolve RoutingTable.ofRoutes
  split
  · next route found =>
    have held : decide (route.pattern.text = normalizePath path) = true :=
      List.find?_some (p := fun x : Route => decide (x.pattern.text = normalizePath path)) found
    have first := h.exact.first route (List.mem_of_find?_eq_some found)
    rw [of_decide_eq_true held] at first
    exact .exact first
  · next missing =>
    have no : ∀ other ∈ routes, ¬other.IsFor path := by
      rintro other ho ⟨policy, text⟩
      obtain ⟨x, hx, hxy⟩ := h.exact.all other ho policy
      simpa [hxy, text] using List.find?_eq_none.mp missing x hx
    cases found : (r.below.mergeSort RoutingTable.isLonger).find? fun x => x.pattern.covers path with
    | some route => exact .below no (h.below.isFirst_longest found)
    | none =>
      refine .nowhere no fun other ho above => ?_
      obtain ⟨x, hx, text⟩ := h.below.all other ho above.1
      have x_above : x.IsAbove path := ⟨(h.below.first x hx).holds.1, text ▸ above.2⟩
      exact List.find?_eq_none.mp found x (List.mem_mergeSort.mpr hx)
        ((h.below.covers_iff hx).mpr x_above)

/-- The table that some calls make. -/
def tableOf (a : Assembly) (files : FileTree) (calls : List Registration) : RoutingTable :=
  (enterAll { assembly := a, files } calls).freeze.2.1

/-- A path is resolved as it is meant, and in whatever order the routes were asked for, unless two of
them have one pattern. -/
theorem resolve_tableOf (a : Assembly) (files : FileTree) (calls : List Registration) (path : String) :
    (∀ o, (tableOf a files calls).resolve path = o ↔ Resolves (Registration.routes calls) path o) ∧
      ∀ more, calls.Perm more → ((Registration.routes calls).map (·.pattern)).Nodup →
        (tableOf a files more).resolve path = (tableOf a files calls).resolve path := by
  have start : Open a [] { assembly := a, files : Registry } := ⟨rfl, rfl, .nil, .nil⟩
  have resolves (calls : List Registration) :
      Resolves (Registration.routes calls) path ((tableOf a files calls).resolve path) :=
    (start.enterAll calls).resolves path
  constructor
  · intro o
    constructor
    · rintro rfl
      exact resolves calls
    · exact (resolves calls).unique
  · intro more order distinct
    exact (resolves more).unique ((resolves calls).perm (order.filterMap _) distinct)

/-- Two versions of an interface, bound in either order. -/
theorem resolve_tableOf_versions :
    let calls : List Registration :=
      [{ pattern := "/api", policy := .below, pipeline := ⟨[], none⟩ },
        { pattern := "/api/v1/", policy := .below, pipeline := ⟨[], none⟩ }]
    ((Registration.routes calls).map (·.pattern)).Nodup ∧
      (tableOf {} {} calls.reverse).resolve "/api/v1/x" = (tableOf {} {} calls).resolve "/api/v1/x" := by
  intro calls
  have distinct : ((Registration.routes calls).map (·.pattern)).Nodup := by decide
  exact ⟨distinct, (resolve_tableOf {} {} calls _).2 _ (List.reverse_perm _).symm distinct⟩

end Registry
end Gateway
