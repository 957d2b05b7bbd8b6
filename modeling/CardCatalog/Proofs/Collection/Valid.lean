import CardCatalog.Proofs.Collection.Rules

/-!
What an accepted collection promises: no two of its types have the same name, so
that a name leads back to the type that bears it.
-/

namespace CardCatalog.Collection

theorem ofTypes_ok {types : List DocumentType} {collection : Collection}
    (valid : ofTypes types = .ok collection) :
    collection.types = types ∧ types ≠ [] ∧ fault [] types = none := by
  obtain ⟨filled, sound, rfl⟩ := ofTypes_eq_ok.mp valid
  exact ⟨rfl, filled, fault_eq_none.mpr sound⟩

theorem names_nodup {types : List DocumentType} {collection : Collection}
    (valid : ofTypes types = .ok collection) : (collection.types.map (·.name)).Nodup := by
  obtain ⟨_, sound, rfl⟩ := ofTypes_eq_ok.mp valid
  exact sound.distinct

theorem get?_eq_none {c : Collection} {name : Text} :
    c.get? name = none ↔ ∀ type ∈ c.types, type.name ≠ name := by
  simp [get?]

theorem mem_of_get? {c : Collection} {name : Text} {type : DocumentType}
    (found : c.get? name = some type) : type ∈ c.types ∧ type.name = name :=
  ⟨List.mem_of_find?_eq_some found, by simpa using List.find?_some found⟩

theorem mem_columns_iff {c : Collection} {name : Text} :
    name ∈ c.columns ↔ ∃ type ∈ c.types, name ∈ type.fieldNames := by
  rw [columns, WordSet.mem_ofList, List.mem_flatMap]

theorem mem_columns {c : Collection} {type : DocumentType} (member : type ∈ c.types) {name : Text}
    (field : name ∈ type.fieldNames) : name ∈ c.columns :=
  mem_columns_iff.mpr ⟨type, member, field⟩

end CardCatalog.Collection
