import CardCatalog.Proofs.Collection.Selection

/-!
Sort specifications. A list of keys is resolved by the first of them that can be sorted on,
and every column that can be sorted on leads to the year. Main statement: two lists with a
comma between them are resolved by the first of the two that resolves, and a single key by its
sign and its column, in whatever order the types are selected.
-/

namespace CardCatalog

theorem Dict.mem_keys {α : Type} {d : Dict α} {key : Text} :
    key ∈ d.keys ↔ ∃ value, d.get? key = some value := by
  simp [keys, get?_eq_some]

theorem DocumentType.sortTarget_iff {type : DocumentType} (sound : type.fault = none)
    {column : Text} : type.sortTarget column = some Column.year ↔
      column = Column.year ∨ column ∈ type.sortColumns.keys := by
  have onYear := (fault_eq_none.mp sound).onYear column
  rw [sortTarget, Dict.mem_keys]
  cases found : type.sortColumns.get? column with
  | none => simp
  | some target => simp [onYear target found]

namespace YearOrder

variable {selection : List DocumentType}

section Keys

theorem keys_append (s t : Text) : keys (s ++ ',' :: t) = keys s ++ keys t := by
  simp [keys, Text.splitOn_append (p := (· = ','))]

theorem keys_single {spec : Text} (single : ',' ∉ spec) :
    keys spec = [Text.trim spec].filter (!·.isEmpty) := by
  have whole : ∀ c ∈ spec, decide (c = ',') = false := by
    intro c member
    exact decide_eq_false fun comma => single (comma ▸ member)
  rw [keys, Text.splitOn_eq_self whole, List.map_singleton]

theorem resolve_append (s t : Text) :
    resolve selection (s ++ ',' :: t) = (resolve selection s).or (resolve selection t) := by
  rw [resolve, keys_append, List.findSome?_append]
  rfl

theorem resolve_single {spec : Text} (single : ',' ∉ spec) :
    resolve selection spec =
      if Text.trim spec = [] then none else ofKey selection (Text.trim spec) := by
  rw [resolve, keys_single single]
  by_cases empty : Text.trim spec = [] <;> simp [empty]

theorem resolve_joined (specs : List Text) :
    resolve selection (Text.joined [','] specs) = specs.findSome? (resolve selection) := by
  induction specs with
  | nil => rfl
  | cons spec rest ih =>
    cases rest with
    | nil => simp [Text.joined]
    | cons next rest =>
      rw [Text.joined_cons_cons, List.append_assoc, List.singleton_append, resolve_append, ih]
      cases found : resolve selection spec <;> simp [found]

theorem resolve_filter (specs : List Text) :
    resolve selection (Text.joined [','] (specs.filter fun spec => (resolve selection spec).isSome)) =
      resolve selection (Text.joined [','] specs) := by
  rw [resolve_joined, resolve_joined]
  induction specs with
  | nil => rfl
  | cons spec rest ih =>
    cases found : resolve selection spec <;> simp [found, ih]

end Keys

/-- The year, and every column that a selected type maps. -/
def Sortable (selection : List DocumentType) (column : Text) : Prop :=
  column = Column.year ∨ ∃ type ∈ selection, column ∈ type.sortColumns.keys

section Selected

variable (filled : selection ≠ []) (sound : ∀ type ∈ selection, type.fault = none)
include filled sound

theorem onYear_iff_sortable {column : Text} :
    onYear selection column = true ↔ Sortable selection column := by
  rw [Selection.onYear_iff sound, Sortable]
  constructor
  · rintro ⟨type, chosen, maps⟩
    rcases (type.sortTarget_iff (sound type chosen)).mp maps with year | own
    · exact .inl year
    · exact .inr ⟨type, chosen, own⟩
  · rintro (year | ⟨type, chosen, own⟩)
    · obtain ⟨type, chosen⟩ := List.exists_mem_of_ne_nil selection filled
      exact ⟨type, chosen, (type.sortTarget_iff (sound type chosen)).mpr (.inl year)⟩
    · exact ⟨type, chosen, (type.sortTarget_iff (sound type chosen)).mpr (.inr own)⟩

theorem ofKey_descending {key : Text} :
    ofKey selection key = some .descending ↔
      ∃ column, key = '-' :: column ∧ Sortable selection column := by
  unfold ofKey
  split
  · simp [onYear_iff_sortable filled sound]
  · rename_i unsigned
    have none : ¬ ∃ column, key = '-' :: column ∧ Sortable selection column :=
      fun ⟨column, signed, _⟩ => unsigned column signed
    simp [none]

theorem ofKey_ascending {key : Text} :
    ofKey selection key = some .ascending ↔
      key.head? ≠ some '-' ∧ Sortable selection key := by
  unfold ofKey
  split
  · simp
  · rename_i unsigned
    have head : key.head? ≠ some '-' := by
      intro signed
      obtain ⟨column, split⟩ := List.head?_eq_some_iff.mp signed
      exact unsigned column split
    simp [head, onYear_iff_sortable filled sound]

end Selected

/-- A list of keys resolves by its first part that resolves, a key by itself by its sign and
its column. What does not resolve can be left out, and the types can be taken in any order. -/
theorem sort_resolved {types selection : List DocumentType} {c : Collection} {names : List Text}
    (valid : Collection.ofTypes types = .ok c) (chosen : c.select names = .ok selection) :
    (∀ s t, resolve selection (s ++ ',' :: t) = (resolve selection s).or (resolve selection t)) ∧
      (∀ spec, ',' ∉ spec →
        (resolve selection spec = some .descending ↔
          ∃ column, Text.trim spec = '-' :: column ∧ Sortable selection column) ∧
        (resolve selection spec = some .ascending ↔
          Text.trim spec ≠ [] ∧ (Text.trim spec).head? ≠ some '-' ∧
            Sortable selection (Text.trim spec))) ∧
      (∀ specs, resolve selection (Text.joined [','] specs) =
        resolve selection
          (Text.joined [','] (specs.filter fun spec => (resolve selection spec).isSome))) ∧
      ∀ other, other.Perm selection → resolve other = resolve selection := by
  obtain ⟨_, accepted, rfl⟩ := Collection.ofTypes_eq_ok.mp valid
  obtain ⟨filled, among⟩ := Collection.select_ok valid chosen
  have sound : ∀ type ∈ selection, type.fault = none := fun type member =>
    DocumentType.fault_eq_none.mpr (accepted.each type (among type member))
  refine ⟨resolve_append, ?_, fun specs => (resolve_filter specs).symm, ?_⟩
  · intro spec single
    rw [resolve_single single]
    by_cases empty : Text.trim spec = []
    · simp [empty]
    · rw [if_neg empty, ofKey_descending filled sound, ofKey_ascending filled sound]
      simp [empty]
  · intro other reordered
    funext spec
    exact (Selection.resolve_congr (fun type => reordered.mem_iff.symm) sound spec).symm

/-- Names cannot be sorted by, so the date decides, and what stands behind it does not. -/
theorem sort_resolved_register :
    Collection.ofTypes [Config.nameIndex, Config.transferRegister] = .ok Config.builtin.collection ∧
      Config.builtin.collection.select ["transportregister".toList] =
        .ok [Config.transferRegister] ∧
      resolve [Config.transferRegister] "naam, -datum ,jaar".toList = some .descending := by
  have valid : Collection.ofTypes [Config.nameIndex, Config.transferRegister] =
      .ok Config.builtin.collection := by rfl
  have chosen : Config.builtin.collection.select ["transportregister".toList] =
      .ok [Config.transferRegister] := by rfl
  obtain ⟨parts, single, _, _⟩ := sort_resolved valid chosen
  have names : resolve [Config.transferRegister] "naam".toList = none := by decide +kernel
  have dated : Sortable [Config.transferRegister] "datum".toList :=
    .inr ⟨Config.transferRegister, by simp, by decide⟩
  have date : resolve [Config.transferRegister] " -datum ".toList = some .descending :=
    (single _ (by decide)).1.mpr ⟨"datum".toList, by decide +kernel, dated⟩
  have spec : "naam, -datum ,jaar".toList =
      "naam".toList ++ ',' :: (" -datum ".toList ++ ',' :: "jaar".toList) := by decide
  refine ⟨valid, chosen, ?_⟩
  rw [spec, parts, parts, names, date]
  rfl

end YearOrder

end CardCatalog
