import CardCatalog.Proofs.Query.Reading
import CardCatalog.Proofs.Query.Shape

/-!
Where the columns of a plan come from. A scope names a field that can be scoped, and
free text searches the weighted fields, whatever the text of the query was.
-/

namespace CardCatalog

namespace Leaf

def columns : Leaf → List Text
  | field name _ => [name]
  | phrase _ fields => fields.map (·.name)
  | fuzzy _ fields => fields.map (·.name)

end Leaf

namespace Scope

theorem scopeOf_eq_some {mark : Mark} {scope : FieldScope} (made : scopeOf mark = some scope) :
    ∃ raw, mark = .scope scope.field raw ∧ scope.field ≠ everyField := by
  cases mark with
  | quotation => cases made
  | scope name raw =>
    rw [scopeOf] at made
    by_cases either : name = everyField ∨ inner raw = []
    · rw [if_pos either] at made
      cases made
    · rw [if_neg either] at made
      cases made
      exact ⟨raw, rfl, fun all => either (.inl all)⟩

theorem listed_of_reads {known : List Text} {u r : Text} {ps : List (Piece Mark)}
    (reads : Reads known u r ps) :
    ∀ scope ∈ (Scan.values ps).filterMap scopeOf, scope.field ∈ known := by
  induction reads with
  | done u => simp [Scan.values]
  | loose _ _ _ _ ih => exact ih
  | quotation _ _ ih => exact ih
  | @scope u lead name raw r ps _ named _ _ ih =>
    intro scope member
    obtain ⟨mark, among, made⟩ := List.mem_filterMap.mp member
    rcases List.mem_cons.mp among with rfl | later
    · obtain ⟨_, same, other⟩ := scopeOf_eq_some made
      cases same
      rcases List.mem_cons.mp (nameAt_eq_some.mp named).1 with all | listed
      · exact absurd all other
      · exact listed
    · exact ih scope (List.mem_filterMap.mpr ⟨mark, later, made⟩)

theorem listed_of_split {known : List Text} {t : Text} {scope : FieldScope}
    (member : scope ∈ (split known t).scopes) : scope.field ∈ known :=
  listed_of_reads (reads_behind known [] t) scope member

end Scope

namespace Phrase

theorem columns_of_leaves {fields : List WeightedField} {t : Text} {leaf : Leaf}
    (member : leaf ∈ leaves fields t) : leaf.columns = fields.map (·.name) := by
  rcases mem_leaves.mp member with ⟨_, _, _, rfl⟩ | ⟨_, rfl⟩
  · rfl
  · rfl

end Phrase

namespace Query

variable {fields : SearchFields} {q : Text} {compiled : Compiled}

theorem columns_of_group {segment : Text} {leaf : Leaf}
    (member : leaf ∈ (group fields segment).flatMap Clause.leaves) :
    ∀ column ∈ leaf.columns, column ∈ fields.scopable ++ fields.weighted.map (·.name) := by
  intro column inside
  rw [group_leaves] at member
  rcases List.mem_append.mp member with scope | free
  · obtain ⟨scope, listed, rfl⟩ := List.mem_map.mp scope
    rw [List.mem_singleton.mp inside]
    apply List.mem_append_left
    unfold parts at listed
    split at listed
    · exact Scope.listed_of_split listed
    · cases listed
  · rw [Phrase.columns_of_leaves free] at inside
    exact List.mem_append_right _ inside

theorem columns_of_compile (made : compile fields q = some compiled) :
    ∀ leaf ∈ compiled.plan.leaves, ∀ column ∈ leaf.columns,
      column ∈ fields.scopable ++ fields.weighted.map (·.name) := by
  intro leaf member
  rw [leaves_of_compile made] at member
  obtain ⟨segment, _, asked⟩ := List.mem_flatMap.mp member
  exact columns_of_group asked

end Query

end CardCatalog
