import CardCatalog.Proofs.Collection.Accepted
import CardCatalog.Proofs.Dict

/-!
Selections of types. A selection fails at the first name that no type has. Which names,
weighted fields and years a query may use depends on which types were selected, not on their
order or on how often one was named; only the weights and the order of the weighted fields
do, and these matter to the scores alone.
-/

namespace CardCatalog

namespace Collection

variable {c : Collection}

def typeNames (c : Collection) : List Text := c.types.map (·.name)

theorem get?_eq_none_iff {name : Text} : c.get? name = none ↔ name ∉ c.typeNames := by
  rw [get?_eq_none, typeNames]
  simp

theorem selected_error {names : List Text} {fault : CollectionFault} :
    c.selected names = .error fault ↔
      ∃ before name after, names = before ++ name :: after ∧
        (∀ n ∈ before, n ∈ c.typeNames) ∧ name ∉ c.typeNames ∧ fault = .unknownType name := by
  induction names with
  | nil => simp [selected]
  | cons first rest ih =>
    rw [selected]
    cases found : c.get? first with
    | none =>
      have absent := get?_eq_none_iff.mp found
      constructor
      · intro failed
        cases failed
        exact ⟨[], first, rest, rfl, by simp, absent, rfl⟩
      · rintro ⟨before, name, after, split, known, _, rfl⟩
        cases before with
        | nil =>
          cases split
          rfl
        | cons n more =>
          cases split
          exact absurd (known first (by simp)) absent
    | some type =>
      have present : first ∈ c.typeNames := by
        by_contra absent
        rw [get?_eq_none_iff.mpr absent] at found
        cases found
      have passed : (c.selected rest).map (type :: ·) = .error fault ↔
          c.selected rest = .error fault := by
        cases c.selected rest <;> simp [Except.map]
      -- a name that is known moves the fault one place on
      rw [passed, ih]
      constructor
      · rintro ⟨before, name, after, rfl, known, absent, same⟩
        exact ⟨first :: before, name, after, rfl, by simpa [present] using known, absent, same⟩
      · rintro ⟨before, name, after, split, known, absent, same⟩
        cases before with
        | nil =>
          cases split
          exact absurd present absent
        | cons n more =>
          cases split
          exact ⟨more, name, after, rfl, fun n later => known n (by simp [later]), absent, same⟩

theorem known_of_selected {names : List Text} {selection : List DocumentType}
    (chosen : c.selected names = .ok selection) : ∀ n ∈ names, n ∈ c.typeNames := by
  induction names generalizing selection with
  | nil => simp
  | cons first rest ih =>
    obtain ⟨type, others, found, later, rfl⟩ := selected_cons.mp chosen
    obtain ⟨listed, same⟩ := mem_of_get? found
    intro n asked
    rcases List.mem_cons.mp asked with rfl | behind
    · exact List.mem_map.mpr ⟨type, listed, same⟩
    · exact ih later n behind

theorem select_error {names : List Text} {fault : CollectionFault} :
    c.select names = .error fault ↔
      ∃ before name after, names = before ++ name :: after ∧
        (∀ n ∈ before, n ∈ c.typeNames) ∧ name ∉ c.typeNames ∧ fault = .unknownType name := by
  rw [← selected_error, select]
  cases names with
  | nil => simp [selected]
  | cons name rest => rfl

theorem select_fails_iff {names : List Text} :
    (∃ fault, c.select names = .error fault) ↔ ∃ name ∈ names, name ∉ c.typeNames := by
  constructor
  · rintro ⟨fault, failed⟩
    obtain ⟨before, name, after, split, _, absent, _⟩ := select_error.mp failed
    exact ⟨name, by simp [split], absent⟩
  · rintro ⟨name, asked, absent⟩
    cases chosen : c.select names with
    | error fault => exact ⟨fault, rfl⟩
    | ok selection =>
      have some : names.isEmpty = false := by
        rw [List.isEmpty_eq_false_iff]
        exact List.ne_nil_of_mem asked
      rw [select, some] at chosen
      exact absurd (known_of_selected chosen name asked) absent

end Collection

namespace Selection

theorem type_of_weightedFields {selection : List DocumentType} {name : Text}
    (member : name ∈ (weightedFields selection).map (·.name)) :
    ∃ type ∈ selection, name ∈ type.fieldNames := by
  obtain ⟨type, chosen, listed⟩ := mem_weighted_names.mp member
  obtain ⟨pair, weighted, rfl⟩ := List.mem_map.mp listed
  exact ⟨type, chosen, DocumentType.mem_fieldNames weighted⟩

theorem type_of_searchFields {selection : List DocumentType} {name : Text}
    (member : name ∈ (searchFields selection).scopable ++
      (searchFields selection).weighted.map (·.name)) :
    ∃ type ∈ selection, name ∈ type.fieldNames := by
  rcases List.mem_append.mp member with scopable | weighted
  · obtain ⟨type, chosen, field⟩ := List.mem_flatMap.mp (WordSet.mem_ofList.mp scopable)
    exact ⟨type, chosen, field⟩
  · exact type_of_weightedFields weighted

end Selection

namespace Collection

theorem mem_of_select {c : Collection} {names : List Text} {selection : List DocumentType}
    (selected : c.select names = .ok selection) : ∀ type ∈ selection, type ∈ c.types := by
  rw [select] at selected
  split at selected
  · cases selected
    exact fun _ member => member
  · exact mem_of_selected selected

variable {c : Collection}

/-- The names of the types that are asked for: all of them if none is named. -/
def asked (c : Collection) (names : List Text) : List Text :=
  if names.isEmpty then c.typeNames else names

theorem mem_selected (unique : (c.types.map (·.name)).Nodup) {names : List Text}
    {selection : List DocumentType} (chosen : c.selected names = .ok selection)
    {type : DocumentType} : type ∈ selection ↔ type ∈ c.types ∧ type.name ∈ names := by
  induction names generalizing selection with
  | nil =>
    cases chosen
    simp
  | cons first rest ih =>
    obtain ⟨here, others, found, later, rfl⟩ := selected_cons.mp chosen
    obtain ⟨listed, named⟩ := mem_of_get? found
    rw [List.mem_cons, List.mem_cons, ih later, and_or_left]
    refine or_congr_left ⟨?_, ?_⟩
    · rintro rfl
      exact ⟨listed, named⟩
    · rintro ⟨among, same⟩
      exact List.inj_on_of_nodup_map unique among listed (same.trans named.symm)

theorem mem_select (valid : ofTypes c.types = .ok c) {names : List Text}
    {selection : List DocumentType} (chosen : c.select names = .ok selection)
    {type : DocumentType} : type ∈ selection ↔ type ∈ c.types ∧ type.name ∈ c.asked names := by
  rw [select] at chosen
  rw [asked]
  split at chosen
  · rename_i none
    cases chosen
    rw [if_pos none]
    exact ⟨fun among => ⟨among, List.mem_map_of_mem among⟩, And.left⟩
  · rename_i some
    rw [if_neg some]
    exact mem_selected (names_nodup valid) chosen

theorem select_of_known {names : List Text} (known : ∀ n ∈ names, n ∈ c.typeNames) :
    ∃ selection, c.select names = .ok selection := by
  cases chosen : c.select names with
  | ok selection => exact ⟨selection, rfl⟩
  | error fault =>
    obtain ⟨name, among, absent⟩ := select_fails_iff.mp ⟨fault, chosen⟩
    exact absurd (known name among) absent

theorem fault_of_mem {types : List DocumentType} (valid : fault [] types = none) :
    ∀ type ∈ types, type.fault = none := fun type member =>
  DocumentType.fault_eq_none.mpr ((fault_eq_none.mp valid).each type member)

end Collection

namespace DocumentType

theorem sortTarget_year {type : DocumentType} (sound : type.fault = none) {column target : Text}
    (maps : type.sortTarget column = some target) : target = Column.year := by
  rw [sortTarget] at maps
  rcases Option.or_eq_some_iff.mp maps with own | ⟨_, usual⟩
  · exact (fault_eq_none.mp sound).onYear column target own
  · split at usual
    · exact (Option.some.inj usual).symm
    · cases usual

end DocumentType

namespace Selection

/-- The first type that knows a column decides, but they all decide alike. -/
theorem onYear_iff {selection : List DocumentType}
    (sound : ∀ type ∈ selection, type.fault = none) {column : Text} :
    YearOrder.onYear selection column = true ↔
      ∃ type ∈ selection, type.sortTarget column = some Column.year := by
  rw [YearOrder.onYear, beq_iff_eq, sortTarget]
  constructor
  · exact List.exists_of_findSome?_eq_some
  · rintro ⟨type, chosen, maps⟩
    cases found : selection.findSome? (·.sortTarget column) with
    | none =>
      rw [List.findSome?_eq_none_iff.mp found type chosen] at maps
      cases maps
    | some target =>
      obtain ⟨other, among, here⟩ := List.exists_of_findSome?_eq_some found
      rw [other.sortTarget_year (sound other among) here]

section Congr

variable {first second : List DocumentType} (same : ∀ type, type ∈ first ↔ type ∈ second)
include same

theorem fieldNames_congr : fieldNames first = fieldNames second := by
  apply congrArg WordSet.words
  apply WordSet.ext_words
  intro name
  simp only [WordSet.mem_ofList, List.mem_flatMap, same]

theorem weighted_congr (name : Text) :
    name ∈ (weightedFields first).map (·.name) ↔ name ∈ (weightedFields second).map (·.name) := by
  simp only [mem_weighted_names, same]

theorem names_congr (name : Text) :
    name ∈ first.map (·.name) ↔ name ∈ second.map (·.name) := by
  simp only [List.mem_map, same]

variable (sound : ∀ type ∈ first, type.fault = none)
include sound

theorem onYear_congr (column : Text) :
    YearOrder.onYear first column = YearOrder.onYear second column := by
  rw [Bool.eq_iff_iff, onYear_iff sound,
    onYear_iff fun type among => sound type ((same type).mpr among)]
  simp only [same]

theorem resolve_congr (spec : Text) :
    YearOrder.resolve first spec = YearOrder.resolve second spec := by
  have keys : YearOrder.ofKey first = YearOrder.ofKey second := by
    funext key
    simp only [YearOrder.ofKey, onYear_congr same sound]
  rw [YearOrder.resolve, keys, YearOrder.resolve]

end Congr

end Selection

end CardCatalog
