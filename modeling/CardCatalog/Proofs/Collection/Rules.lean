import CardCatalog.Collection.Basic
import CardCatalog.Proofs.Dict
import Mathlib.Data.List.Induction
import Mathlib.Data.List.Nodup

/-!
The rules for document types and for a collection of them, said without the order in which
they are checked, and which of them is broken first: type by type and, in a type, its name
before its fields, its sort columns and the source of its years. A list of types makes a
collection if it obeys every rule, and is answered otherwise with the rule that is broken
first.
-/

namespace CardCatalog

/-! Going through a list, each item checked against the names of those in front of it -/

section InTurn

variable {α β : Type} (name : α → Text) (check : List Text → α → Option β)

def inTurn : List Text → List α → Option β
  | _, [] => none
  | seen, item :: rest => (check seen item).or (inTurn (name item :: seen) rest)

theorem inTurn_concat (seen : List Text) (items : List α) (last : α) :
    inTurn name check seen (items ++ [last]) =
      (inTurn name check seen items).or (check ((items.map name).reverse ++ seen) last) := by
  induction items generalizing seen with
  | nil => simp [inTurn]
  | cons item rest ih => simp [inTurn, ih, Option.or_assoc]

variable {name check}

theorem inTurn_eq_none {P : α → Prop} {items : List α}
    (passes : ∀ seen item, check seen item = none ↔ name item ∉ seen ∧ P item) :
    inTurn name check [] items = none ↔ (items.map name).Nodup ∧ ∀ item ∈ items, P item := by
  induction items using List.reverseRecOn with
  | nil => simp [inTurn]
  | append_singleton items last ih =>
    rw [inTurn_concat, Option.or_eq_none_iff, ih, passes, List.map_append, List.map_singleton,
      ← List.concat_eq_append, List.nodup_concat, List.forall_mem_append]
    simp only [List.append_nil, List.mem_reverse, List.forall_mem_singleton]
    constructor
    · rintro ⟨⟨distinct, each⟩, fresh, own⟩
      exact ⟨⟨fresh, distinct⟩, each, own⟩
    · rintro ⟨⟨fresh, distinct⟩, each, own⟩
      exact ⟨⟨distinct, each⟩, fresh, own⟩

theorem inTurn_eq_some {items : List α} {fault : β} :
    inTurn name check [] items = some fault ↔
      ∃ front item back, items = front ++ item :: back ∧ inTurn name check [] front = none ∧
        check (front.map name).reverse item = some fault := by
  -- from behind: the last item only counts if nothing was found before
  induction items using List.reverseRecOn with
  | nil => simp [inTurn]
  | append_singleton items last ih =>
    rw [inTurn_concat, List.append_nil, Option.or_eq_some_iff, ih]
    constructor
    · rintro (⟨front, item, back, rfl, clear, found⟩ | ⟨clear, found⟩)
      · exact ⟨front, item, back ++ [last], by simp, clear, found⟩
      · exact ⟨items, last, [], rfl, clear, found⟩
    · rintro ⟨front, item, back, split, clear, found⟩
      rcases List.eq_nil_or_concat back with rfl | ⟨back, other, rfl⟩
      · obtain ⟨rfl, same⟩ := List.append_inj' split rfl
        cases same
        exact .inr ⟨clear, found⟩
      · have shorter : items ++ [last] = (front ++ item :: back) ++ [other] := by
          rw [split]
          simp
        exact .inl ⟨front, item, back, (List.append_inj' shorter rfl).1, clear, found⟩

end InTurn

/-- Names that differ, and none of them taken by the index itself. -/
structure Proper (fields : List FieldSpec) : Prop where
  distinct : (fields.map (·.name)).Nodup
  free : ∀ field ∈ fields, field.name ∉ Column.reserved

namespace DocumentType

variable {type : DocumentType}

structure Sound (type : DocumentType) : Prop where
  proper : Proper type.fields
  onYear : ∀ column target, type.sortColumns.get? column = some target → target = Column.year
  source : ∀ field, type.yearSource = some field → field ∈ type.fieldNames

/-- Which rule for a type by itself is broken first. -/
inductive FirstFault (type : DocumentType) : CollectionFault → Prop
  | reserved {front back : List FieldSpec} {field : FieldSpec}
      (split : type.fields = front ++ field :: back) (before : Proper front)
      (taken : field.name ∈ Column.reserved) :
      FirstFault type (.reservedField type.name field.name)
  | repeated {front back : List FieldSpec} {field : FieldSpec}
      (split : type.fields = front ++ field :: back) (before : Proper front)
      (free : field.name ∉ Column.reserved) (again : field.name ∈ front.map (·.name)) :
      FirstFault type (.repeatedField type.name field.name)
  | target {column target : Text} (proper : Proper type.fields)
      (maps : type.sortColumns.get? column = some target) (other : target ≠ Column.year)
      (least : ∀ later aim, type.sortColumns.get? later = some aim → aim ≠ Column.year →
        later ≠ column → column < later) :
      FirstFault type (.unsortableTarget type.name column target)
  | source {field : Text} (proper : Proper type.fields)
      (onYear : ∀ column target, type.sortColumns.get? column = some target → target = Column.year)
      (names : type.yearSource = some field) (missing : field ∉ type.fieldNames) :
      FirstFault type (.unknownYearSource type.name field)

def fieldCheck (type : DocumentType) (seen : List Text) (field : FieldSpec) :
    Option CollectionFault :=
  if Column.reserved.contains field.name then some (.reservedField type.name field.name)
  else if seen.contains field.name then some (.repeatedField type.name field.name)
  else none

theorem fieldFault_eq (seen : List Text) (fields : List FieldSpec) :
    type.fieldFault seen fields = inTurn (·.name) type.fieldCheck seen fields := by
  induction fields generalizing seen with
  | nil => rfl
  | cons field rest ih =>
    rw [fieldFault, inTurn, fieldCheck, ih]
    simp only [List.contains_iff_mem]
    split
    · rfl
    · split <;> rfl

theorem fieldCheck_eq_none {seen : List Text} {field : FieldSpec} :
    type.fieldCheck seen field = none ↔ field.name ∉ Column.reserved ∧ field.name ∉ seen := by
  rw [fieldCheck]
  simp only [List.contains_iff_mem]
  split <;> simp [*]

theorem fieldCheck_eq_some {seen : List Text} {field : FieldSpec} {fault : CollectionFault} :
    type.fieldCheck seen field = some fault ↔
      field.name ∈ Column.reserved ∧ .reservedField type.name field.name = fault ∨
        field.name ∉ Column.reserved ∧ field.name ∈ seen ∧
          .repeatedField type.name field.name = fault := by
  rw [fieldCheck]
  simp only [List.contains_iff_mem]
  split <;> simp [*]

theorem fieldFault_eq_none {fields : List FieldSpec} :
    type.fieldFault [] fields = none ↔ Proper fields := by
  rw [fieldFault_eq, inTurn_eq_none (P := (·.name ∉ Column.reserved))]
  · exact ⟨fun ⟨distinct, free⟩ => ⟨distinct, free⟩, fun ⟨distinct, free⟩ => ⟨distinct, free⟩⟩
  · intro seen field
    rw [fieldCheck_eq_none, and_comm]

theorem fieldFault_eq_some {fault : CollectionFault} :
    type.fieldFault [] type.fields = some fault ↔
      ∃ front field back, type.fields = front ++ field :: back ∧ Proper front ∧
        type.fieldCheck (front.map (·.name)).reverse field = some fault := by
  rw [fieldFault_eq, inTurn_eq_some]
  simp only [← fieldFault_eq, fieldFault_eq_none]

theorem sortFault_eq_none :
    type.sortFault = none ↔
      ∀ column target, type.sortColumns.get? column = some target → target = Column.year := by
  simp [sortFault, Dict.get?_eq_some]

theorem sortFault_eq_some {fault : CollectionFault} :
    type.sortFault = some fault ↔
      ∃ column target, type.sortColumns.get? column = some target ∧ target ≠ Column.year ∧
        (∀ later aim, type.sortColumns.get? later = some aim → aim ≠ Column.year →
          later ≠ column → column < later) ∧ .unsortableTarget type.name column target = fault := by
  simp [sortFault, Dict.find_entries, and_assoc]

theorem yearFault_eq_none :
    type.yearFault = none ↔ ∀ field, type.yearSource = some field → field ∈ type.fieldNames := by
  cases source : type.yearSource <;> simp [yearFault, source, Option.filter_eq_none_iff]

theorem yearFault_eq_some {fault : CollectionFault} :
    type.yearFault = some fault ↔
      ∃ field, type.yearSource = some field ∧ field ∉ type.fieldNames ∧
        .unknownYearSource type.name field = fault := by
  simp [yearFault, and_assoc]

theorem fault_eq_none : type.fault = none ↔ type.Sound := by
  rw [fault, Option.or_eq_none_iff, Option.or_eq_none_iff, fieldFault_eq_none, sortFault_eq_none,
    yearFault_eq_none]
  exact ⟨fun ⟨proper, onYear, source⟩ => ⟨proper, onYear, source⟩,
    fun ⟨proper, onYear, source⟩ => ⟨proper, onYear, source⟩⟩

theorem fault_eq_some {fault : CollectionFault} :
    type.fault = some fault ↔ type.FirstFault fault := by
  rw [DocumentType.fault, Option.or_eq_some_iff, Option.or_eq_some_iff, fieldFault_eq_none,
    sortFault_eq_none, fieldFault_eq_some, sortFault_eq_some, yearFault_eq_some]
  constructor
  · rintro (⟨front, field, back, split, before, found⟩ |
      ⟨proper, ⟨column, target, maps, other, least, rfl⟩ | ⟨onYear, field, names, missing, rfl⟩⟩)
    · rcases fieldCheck_eq_some.mp found with ⟨taken, rfl⟩ | ⟨free, again, rfl⟩
      · exact .reserved split before taken
      · exact .repeated split before free (List.mem_reverse.mp again)
    · exact .target proper maps other least
    · exact .source proper onYear names missing
  · intro first
    cases first with
    | reserved split before taken =>
      exact .inl ⟨_, _, _, split, before, fieldCheck_eq_some.mpr (.inl ⟨taken, rfl⟩)⟩
    | repeated split before free again =>
      refine .inl ⟨_, _, _, split, before, fieldCheck_eq_some.mpr (.inr ⟨free, ?_, rfl⟩)⟩
      exact List.mem_reverse.mpr again
    | target proper maps other least =>
      exact .inr ⟨proper, .inl ⟨_, _, maps, other, least, rfl⟩⟩
    | source proper onYear names missing =>
      exact .inr ⟨proper, .inr ⟨onYear, _, names, missing, rfl⟩⟩

end DocumentType

namespace Collection

variable {types : List DocumentType}

structure Sound (types : List DocumentType) : Prop where
  distinct : (types.map (·.name)).Nodup
  each : ∀ type ∈ types, type.Sound

/-- Which rule for a collection is broken first. -/
inductive FirstFault : List DocumentType → CollectionFault → Prop
  | noTypes : FirstFault [] .noTypes
  | repeated {front back : List DocumentType} {type : DocumentType} (before : Sound front)
      (again : type.name ∈ front.map (·.name)) :
      FirstFault (front ++ type :: back) (.repeatedType type.name)
  | within {front back : List DocumentType} {type : DocumentType} {fault : CollectionFault}
      (before : Sound front) (fresh : type.name ∉ front.map (·.name))
      (first : type.FirstFault fault) : FirstFault (front ++ type :: back) fault

def typeCheck (seen : List Text) (type : DocumentType) : Option CollectionFault :=
  if seen.contains type.name then some (.repeatedType type.name) else type.fault

theorem fault_eq (seen : List Text) : fault seen types = inTurn (·.name) typeCheck seen types := by
  induction types generalizing seen with
  | nil => rfl
  | cons type rest ih =>
    have step : fault seen (type :: rest) =
        if type.name ∈ seen then some (.repeatedType type.name)
        else type.fault.or (fault (type.name :: seen) rest) := rfl
    rw [step, inTurn, typeCheck, ih]
    simp only [List.contains_iff_mem]
    split <;> rfl

theorem typeCheck_eq_none {seen : List Text} {type : DocumentType} :
    typeCheck seen type = none ↔ type.name ∉ seen ∧ type.Sound := by
  rw [typeCheck, ← DocumentType.fault_eq_none]
  simp only [List.contains_iff_mem]
  split <;> simp [*]

theorem typeCheck_eq_some {seen : List Text} {type : DocumentType} {wrong : CollectionFault} :
    typeCheck seen type = some wrong ↔
      type.name ∈ seen ∧ .repeatedType type.name = wrong ∨
        type.name ∉ seen ∧ type.FirstFault wrong := by
  rw [typeCheck, ← DocumentType.fault_eq_some]
  simp only [List.contains_iff_mem]
  split <;> simp [*]

theorem fault_eq_none : fault [] types = none ↔ Sound types := by
  rw [fault_eq, inTurn_eq_none (P := DocumentType.Sound)]
  · exact ⟨fun ⟨distinct, each⟩ => ⟨distinct, each⟩, fun ⟨distinct, each⟩ => ⟨distinct, each⟩⟩
  · exact fun _ _ => typeCheck_eq_none

theorem fault_eq_some {wrong : CollectionFault} :
    fault [] types = some wrong ↔
      ∃ front type back, types = front ++ type :: back ∧ Sound front ∧
        typeCheck (front.map (·.name)).reverse type = some wrong := by
  rw [fault_eq, inTurn_eq_some]
  simp only [← fault_eq, fault_eq_none]

theorem ofTypes_eq_ok {collection : Collection} :
    ofTypes types = .ok collection ↔ types ≠ [] ∧ Sound types ∧ collection = ⟨types⟩ := by
  rw [← fault_eq_none, ofTypes]
  cases types with
  | nil => simp
  | cons type rest => cases fault [] (type :: rest) <;> simp [eq_comm]

theorem ofTypes_eq_error {wrong : CollectionFault} :
    ofTypes types = .error wrong ↔ FirstFault types wrong := by
  have either : ofTypes types = .error wrong ↔
      types = [] ∧ .noTypes = wrong ∨ fault [] types = some wrong := by
    rw [ofTypes]
    cases types with
    | nil =>
      have clear : fault [] [] = none := rfl
      simp [clear]
    | cons type rest => cases fault [] (type :: rest) <;> simp
  rw [either, fault_eq_some]
  constructor
  · rintro (⟨rfl, rfl⟩ | ⟨front, type, back, rfl, before, found⟩)
    · exact .noTypes
    · rcases typeCheck_eq_some.mp found with ⟨again, rfl⟩ | ⟨fresh, first⟩
      · exact .repeated before (List.mem_reverse.mp again)
      · exact .within before (fun member => fresh (List.mem_reverse.mpr member)) first
  · intro first
    cases first with
    | noTypes => exact .inl ⟨rfl, rfl⟩
    | repeated before again =>
      refine .inr ⟨_, _, _, rfl, before, typeCheck_eq_some.mpr (.inl ⟨?_, rfl⟩)⟩
      exact List.mem_reverse.mpr again
    | within before fresh first =>
      refine .inr ⟨_, _, _, rfl, before, typeCheck_eq_some.mpr (.inr ⟨?_, first⟩)⟩
      exact fun member => fresh (List.mem_reverse.mp member)

end Collection

end CardCatalog
