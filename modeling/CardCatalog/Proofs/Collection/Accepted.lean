import CardCatalog.Proofs.Collection.Settings
import CardCatalog.Proofs.Collection.Valid
import Mathlib.Data.List.Nodup

/-!
Settings that passed the checks, however they were written down. Their collection
is valid, a page has room for a hit, a name of a type that was selected selects this
type again, and all its weighted fields are searched.
-/

namespace CardCatalog

namespace Config

def Accepted (config : Config) : Prop := ∃ draft, ofDraft draft = .ok config

variable {config : Config}

theorem Accepted.room (accepted : config.Accepted) : 1 ≤ config.pageSize := by
  obtain ⟨draft, checked⟩ := accepted
  obtain ⟨sound, rfl⟩ := ofDraft_eq_ok.mp checked
  exact sound.room

theorem Accepted.valid (accepted : config.Accepted) :
    Collection.ofTypes config.collection.types = .ok config.collection := by
  obtain ⟨draft, checked⟩ := accepted
  obtain ⟨sound, rfl⟩ := ofDraft_eq_ok.mp checked
  exact Collection.ofTypes_eq_ok.mpr ⟨sound.filled, sound.types, rfl⟩

end Config

namespace Collection

variable {c : Collection}

theorem get?_of_mem (unique : (c.types.map (·.name)).Nodup) {type : DocumentType}
    (member : type ∈ c.types) : c.get? type.name = some type := by
  cases found : c.get? type.name with
  | none => exact absurd rfl (get?_eq_none.mp found type member)
  | some other =>
    obtain ⟨listed, same⟩ := mem_of_get? found
    rw [List.inj_on_of_nodup_map unique listed member same]

theorem selected_cons {name : Text} {names : List Text} {selection : List DocumentType} :
    c.selected (name :: names) = .ok selection ↔
      ∃ type rest, c.get? name = some type ∧ c.selected names = .ok rest ∧
        selection = type :: rest := by
  rw [selected]
  cases c.get? name with
  | none => simp
  | some type => cases c.selected names <;> simp [Except.map, eq_comm]

theorem mem_of_selected {names : List Text} {selection : List DocumentType}
    (found : c.selected names = .ok selection) : ∀ type ∈ selection, type ∈ c.types := by
  induction names generalizing selection with
  | nil =>
    cases found
    simp
  | cons name names ih =>
    obtain ⟨type, rest, named, others, rfl⟩ := selected_cons.mp found
    intro other member
    rcases List.mem_cons.mp member with rfl | later
    · exact (mem_of_get? named).1
    · exact ih others other later

theorem selected_ne_nil {names : List Text} {selection : List DocumentType} (some : names ≠ [])
    (found : c.selected names = .ok selection) : selection ≠ [] := by
  obtain ⟨name, names, rfl⟩ := List.exists_cons_of_ne_nil some
  obtain ⟨type, rest, _, _, rfl⟩ := selected_cons.mp found
  simp

theorem selected_names (unique : (c.types.map (·.name)).Nodup) {selection : List DocumentType}
    (all : ∀ type ∈ selection, type ∈ c.types) :
    c.selected (selection.map (·.name)) = .ok selection := by
  induction selection with
  | nil => rfl
  | cons type rest ih =>
    have tail := ih fun other member => all other (List.mem_cons_of_mem type member)
    rw [List.map_cons, selected, get?_of_mem unique (all type (by simp)), tail]
    rfl

theorem select_ok (valid : ofTypes c.types = .ok c) {names : List Text}
    {selection : List DocumentType} (selected : c.select names = .ok selection) :
    selection ≠ [] ∧ ∀ type ∈ selection, type ∈ c.types := by
  rw [select] at selected
  split at selected
  · cases selected
    exact ⟨(ofTypes_ok valid).2.1, fun _ member => member⟩
  · rename_i some
    exact ⟨selected_ne_nil (by simpa using some) selected, mem_of_selected selected⟩

theorem select_names (valid : ofTypes c.types = .ok c) {names : List Text}
    {selection : List DocumentType} (selected : c.select names = .ok selection) :
    c.select (selection.map (·.name)) = .ok selection := by
  obtain ⟨some, all⟩ := select_ok valid selected
  have named : (selection.map (·.name)).isEmpty = false := by simpa using some
  rw [select, named]
  exact selected_names (names_nodup valid) all

end Collection

namespace Selection

theorem mem_addWeight {fields : List WeightedField} {name other : Text} (weight : Float32) :
    other ∈ (addWeight fields name weight).map (·.name) ↔
      other = name ∨ other ∈ fields.map (·.name) := by
  induction fields with
  | nil => simp [addWeight]
  | cons field rest ih =>
    unfold addWeight
    split
    · rename_i same
      simp [same]
    · rw [List.map_cons, List.mem_cons, ih, List.map_cons, List.mem_cons]
      exact or_left_comm

theorem mem_weighted_names {selection : List DocumentType} {name : Text} :
    name ∈ (weightedFields selection).map (·.name) ↔
      ∃ type ∈ selection, name ∈ type.weightedFields.map (·.1) := by
  have added : ∀ (pairs : List (Text × Float32)) (fields : List WeightedField),
      name ∈ (pairs.foldl (fun fields f => addWeight fields f.1 f.2) fields).map (·.name) ↔
        name ∈ fields.map (·.name) ∨ name ∈ pairs.map (·.1) := by
    intro pairs
    induction pairs with
    | nil => simp
    | cons pair rest ih =>
      intro fields
      rw [List.foldl_cons, ih, mem_addWeight, List.map_cons, List.mem_cons, or_assoc,
        or_left_comm]
  rw [weightedFields, added, List.map_flatMap, List.mem_flatMap]
  simp

theorem mem_weightedFields {selection : List DocumentType} {type : DocumentType}
    (chosen : type ∈ selection) {name : Text} {weight : Float32}
    (weighted : (name, weight) ∈ type.weightedFields) :
    ∃ field ∈ weightedFields selection, field.name = name :=
  List.mem_map.mp (mem_weighted_names.mpr ⟨type, chosen, List.mem_map.mpr ⟨_, weighted, rfl⟩⟩)

end Selection

theorem DocumentType.mem_fieldNames {type : DocumentType} {name : Text} {weight : Float32}
    (weighted : (name, weight) ∈ type.weightedFields) : name ∈ type.fieldNames := by
  obtain ⟨field, listed, same⟩ := List.mem_filterMap.mp weighted
  obtain ⟨_, _, pair⟩ := Option.map_eq_some_iff.mp same
  cases pair
  exact List.mem_map.mpr ⟨field, listed, rfl⟩

end CardCatalog
