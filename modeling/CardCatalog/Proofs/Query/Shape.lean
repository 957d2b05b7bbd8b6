import CardCatalog.Query.Compile

/-!
The shape of a compiled plan: it has a group, every group has a clause and every
clause a leaf, whatever the query was.
-/

namespace CardCatalog

namespace Clause

theorem leaves_of_ofLeaves {ls : List Leaf} {c : Clause} (made : ofLeaves ls = some c) :
    c.leaves = ls := by
  have all := leaves_ofLeaves ls
  rw [made] at all
  exact all

theorem ofLeaves_eq_none {ls : List Leaf} : ofLeaves ls = none ↔ ls = [] := by
  match ls with
  | [] => simp [ofLeaves]
  | [_] => simp [ofLeaves]
  | _ :: _ :: _ => simp [ofLeaves]

theorem leaves_ne_nil {ls : List Leaf} {c : Clause} (made : ofLeaves ls = some c) :
    c.leaves ≠ [] := by
  intro none
  rw [leaves_of_ofLeaves made] at none
  rw [ofLeaves_eq_none.mpr none] at made
  cases made

end Clause

namespace Plan

theorem ofGroups_eq_some {groups : List Group} {years : Option YearRange} {plan : Plan}
    (made : ofGroups groups years = some plan) :
    plan.groups = groups.filter (!·.isEmpty) ∧ plan.groups ≠ [] ∧ plan.years = years := by
  unfold ofGroups at made
  split at made
  · cases made
  · rename_i some
    cases made
    exact ⟨rfl, some, rfl⟩

theorem ofGroups_eq_none {groups : List Group} {years : Option YearRange} :
    ofGroups groups years = none ↔ ∀ group ∈ groups, group = [] := by
  unfold ofGroups
  split
  · rename_i empty
    simpa using empty
  · rename_i some
    simpa using some

end Plan

namespace Phrase

theorem mem_leaves {fields : List WeightedField} {t : Text} {leaf : Leaf} :
    leaf ∈ leaves fields t ↔
      (∃ v ∈ Scan.values (Scan.pieces find t), v ≠ [] ∧ leaf = .phrase v fields) ∨
        (leftover (Scan.pieces find t)).any Text.isAlphanumeric = true ∧
          leaf = .fuzzy (leftover (Scan.pieces find t)) fields := by
  have phrases : leaf ∈ ((Scan.values (Scan.pieces find t)).filter (!·.isEmpty)).map
        (Leaf.phrase · fields) ↔
      ∃ v ∈ Scan.values (Scan.pieces find t), v ≠ [] ∧ leaf = .phrase v fields := by
    constructor
    · intro member
      obtain ⟨v, kept, rfl⟩ := List.mem_map.mp member
      obtain ⟨inside, filled⟩ := List.mem_filter.mp kept
      exact ⟨v, inside, by simpa using filled, rfl⟩
    · rintro ⟨v, inside, filled, rfl⟩
      exact List.mem_map.mpr ⟨v, List.mem_filter.mpr ⟨inside, by simpa using filled⟩, rfl⟩
  rw [← phrases, leaves]
  by_cases lettered : (leftover (Scan.pieces find t)).any Text.isAlphanumeric = true
  · simp only [lettered, if_true, List.mem_append, List.mem_singleton, true_and]
  · simp only [lettered, if_false, false_and, or_false, Bool.false_eq_true]

end Phrase

namespace Query

theorem group_leaves_ne_nil {fields : SearchFields} {segment : Text} {c : Clause}
    (member : c ∈ group fields segment) : c.leaves ≠ [] := by
  rcases List.mem_append.mp member with scope | text
  · obtain ⟨_, _, rfl⟩ := List.mem_map.mp scope
    simp [Clause.leaves]
  · exact Clause.leaves_ne_nil (Option.mem_toList.mp text)

theorem group_leaves (fields : SearchFields) (segment : Text) :
    (group fields segment).flatMap Clause.leaves =
      (parts fields segment).scopes.map (fun scope => .field scope.field scope.value) ++
        Phrase.leaves fields.weighted (parts fields segment).leftover := by
  have text (t : Text) : (Phrase.compile fields.weighted t).toList.flatMap Clause.leaves =
      Phrase.leaves fields.weighted t := by
    have all := Clause.leaves_ofLeaves (Phrase.leaves fields.weighted t)
    rw [Phrase.compile]
    cases made : Clause.ofLeaves (Phrase.leaves fields.weighted t) with
    | none =>
      rw [made] at all
      exact all
    | some clause =>
      rw [made] at all
      simpa using all
  rw [group, List.flatMap_append, text, List.flatMap_map, List.map_eq_flatMap]
  rfl

theorem compile_eq_none {fields : SearchFields} {q : Text} :
    compile fields q = none ↔
      ∀ segment ∈ segments (YearRange.extract q).2, group fields segment = [] := by
  simp [compile, Plan.ofGroups_eq_none]

theorem compile_groups {fields : SearchFields} {q : Text} {compiled : Compiled}
    (made : compile fields q = some compiled) :
    compiled.plan.groups =
        ((segments (YearRange.extract q).2).map (group fields)).filter (!·.isEmpty) ∧
      compiled.plan.groups ≠ [] := by
  obtain ⟨plan, shaped, rfl⟩ := Option.map_eq_some_iff.mp made
  have parts := Plan.ofGroups_eq_some shaped
  exact ⟨parts.1, parts.2.1⟩

theorem keywords_of_compile {fields : SearchFields} {q : Text} {compiled : Compiled}
    (made : compile fields q = some compiled) :
    compiled.keywords =
      WordSet.ofList ((segments (YearRange.extract q).2).flatMap (keywords fields)) := by
  obtain ⟨plan, _, rfl⟩ := Option.map_eq_some_iff.mp made
  rfl

theorem groups_ne_nil {fields : SearchFields} {q : Text} {compiled : Compiled}
    (made : compile fields q = some compiled) :
    compiled.plan.groups ≠ [] ∧ ∀ g ∈ compiled.plan.groups, g ≠ [] ∧ ∀ c ∈ g, c.leaves ≠ [] := by
  obtain ⟨same, some⟩ := compile_groups made
  refine ⟨some, fun g inside => ?_⟩
  rw [same] at inside
  obtain ⟨among, full⟩ := List.mem_filter.mp inside
  obtain ⟨segment, _, rfl⟩ := List.mem_map.mp among
  exact ⟨by simpa using full, fun c member => group_leaves_ne_nil member⟩

theorem leaves_of_compile {fields : SearchFields} {q : Text} {compiled : Compiled}
    (made : compile fields q = some compiled) :
    compiled.plan.leaves = (segments (YearRange.extract q).2).flatMap fun segment =>
      (group fields segment).flatMap Clause.leaves := by
  have kept (groups : List Group) :
      (groups.filter (!·.isEmpty)).flatMap (·.flatMap Clause.leaves) =
        groups.flatMap (·.flatMap Clause.leaves) := by
    induction groups with
    | nil => rfl
    | cons g rest ih => cases g <;> simp [ih]
  rw [Plan.leaves, (compile_groups made).1, kept, List.flatMap_map]

end Query

end CardCatalog
