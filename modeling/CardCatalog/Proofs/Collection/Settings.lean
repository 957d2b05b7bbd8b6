import CardCatalog.Collection.Settings
import CardCatalog.Proofs.Collection.Valid

/-!
The rules for the settings of a search: a page has room for a hit, the types make a collection
and every word that is suggested comes from a field of theirs. Main statement: settings that
are read are kept as they are given if they obey every rule, and are answered otherwise with
the rule that is broken first, in a message that shows the names that break it.
-/

namespace CardCatalog

namespace Draft

def Knows (draft : Draft) (field : Text) : Prop := ∃ type ∈ draft.types, field ∈ type.fieldNames

structure Sound (draft : Draft) : Prop where
  room : 1 ≤ draft.pageSize
  filled : draft.types ≠ []
  types : Collection.Sound draft.types
  known : ∀ field ∈ draft.suggestFields, draft.Knows field

/-- Which rule for the settings is broken first. -/
inductive FirstFault (draft : Draft) : ConfigFault → Prop
  | noRoom (none : draft.pageSize = 0) : FirstFault draft .pageSizeZero
  | within {fault : CollectionFault} (room : 1 ≤ draft.pageSize)
      (first : Collection.FirstFault draft.types fault) : FirstFault draft (.collection fault)
  | unknown {front back : List Text} {field : Text} (room : 1 ≤ draft.pageSize)
      (filled : draft.types ≠ []) (types : Collection.Sound draft.types)
      (split : draft.suggestFields = front ++ field :: back)
      (before : ∀ other ∈ front, draft.Knows other) (missing : ¬ draft.Knows field) :
      FirstFault draft (.unknownSuggestField field)

variable {draft : Draft}

theorem find_eq_none :
    draft.suggestFields.find? (!(Collection.mk draft.types).columns.contains ·) = none ↔
      ∀ field ∈ draft.suggestFields, draft.Knows field := by
  simp [Knows, Collection.mem_columns_iff]

theorem find_eq_some {field : Text} :
    draft.suggestFields.find? (!(Collection.mk draft.types).columns.contains ·) = some field ↔
      ¬ draft.Knows field ∧ ∃ front back, draft.suggestFields = front ++ field :: back ∧
        ∀ other ∈ front, draft.Knows other := by
  rw [List.find?_eq_some_iff_append]
  simp [Knows, Collection.mem_columns_iff]

end Draft

namespace Config

variable {draft : Draft}

theorem ofDraft_eq_ok {config : Config} :
    ofDraft draft = .ok config ↔ draft.Sound ∧
      config = ⟨draft.pageSize, draft.suggestSize, draft.suggestFields, ⟨draft.types⟩⟩ := by
  constructor
  · intro accepted
    unfold ofDraft at accepted
    split at accepted
    · cases accepted
    · rename_i room
      split at accepted
      · cases accepted
      · rename_i collection made
        obtain ⟨filled, sound, rfl⟩ := Collection.ofTypes_eq_ok.mp made
        split at accepted
        · cases accepted
        · rename_i clear
          cases accepted
          exact ⟨⟨Nat.one_le_iff_ne_zero.mpr room, filled, sound, Draft.find_eq_none.mp clear⟩, rfl⟩
  · rintro ⟨⟨room, filled, sound, known⟩, rfl⟩
    have made := Collection.ofTypes_eq_ok.mpr ⟨filled, sound, rfl⟩
    have clear := Draft.find_eq_none.mpr known
    rw [ofDraft, if_neg (Nat.one_le_iff_ne_zero.mp room), made]
    simp only [clear]

theorem ofDraft_eq_error {fault : ConfigFault} :
    ofDraft draft = .error fault ↔ draft.FirstFault fault := by
  constructor
  · intro refused
    unfold ofDraft at refused
    split at refused
    · rename_i none
      cases refused
      exact .noRoom none
    · rename_i room
      have page := Nat.one_le_iff_ne_zero.mpr room
      split at refused
      · rename_i wrong failed
        cases refused
        exact .within page (Collection.ofTypes_eq_error.mp failed)
      · rename_i collection made
        obtain ⟨filled, sound, rfl⟩ := Collection.ofTypes_eq_ok.mp made
        split at refused
        · rename_i field first
          cases refused
          obtain ⟨missing, front, back, split, before⟩ := Draft.find_eq_some.mp first
          exact .unknown page filled sound split before missing
        · cases refused
  · intro first
    cases first with
    | noRoom none => rw [ofDraft, if_pos none]
    | within room first =>
      rw [ofDraft, if_neg (Nat.one_le_iff_ne_zero.mp room), Collection.ofTypes_eq_error.mpr first]
    | unknown room filled sound split before missing =>
      have made := Collection.ofTypes_eq_ok.mpr ⟨filled, sound, rfl⟩
      have found := Draft.find_eq_some.mpr ⟨missing, _, _, split, before⟩
      rw [ofDraft, if_neg (Nat.one_le_iff_ne_zero.mp room), made]
      simp only [found]

end Config

namespace CollectionFault

def names : CollectionFault → List Text
  | noTypes => []
  | repeatedType type => [type]
  | reservedField type field => [type, field]
  | repeatedField type field => [type, field]
  | unsortableTarget type column target => [type, column, target]
  | unknownYearSource type field => [type, field]
  | unknownType type => [type]

theorem infix_tick (name : Text) : name <:+: tick name := ⟨['\x60'], ['\x60'], rfl⟩

theorem pair_shown (type other between after : Text) :
    ∀ name ∈ [type, other], name <:+: aboutType type ++ between ++ tick other ++ after := by
  have first : type <:+: aboutType type := List.infix_append_of_infix_right (infix_tick type)
  have second : other <:+: aboutType type ++ between ++ tick other :=
    List.infix_append_of_infix_right (infix_tick other)
  intro name among
  rcases List.mem_cons.mp among with rfl | rest
  · exact List.infix_append_of_infix_left
      (List.infix_append_of_infix_left (List.infix_append_of_infix_left first))
  · rw [List.mem_singleton.mp rest]
    exact List.infix_append_of_infix_left second

theorem names_shown (fault : CollectionFault) : ∀ name ∈ fault.names, name <:+: fault.message := by
  cases fault with
  | noTypes => simp [names]
  | repeatedType type =>
    intro name among
    rw [List.mem_singleton.mp among]
    exact List.infix_append_of_infix_left (List.infix_append_of_infix_right (infix_tick type))
  | reservedField type field => exact pair_shown type field _ _
  | repeatedField type field => exact pair_shown type field _ _
  | unsortableTarget type column target =>
    have front {name t : Text} (a b c : Text) (inside : name <:+: t) : name <:+: t ++ a ++ b ++ c :=
      inside.trans ⟨[], a ++ b ++ c, by simp⟩
    intro name among
    rcases List.mem_append.mp (show name ∈ [type, column] ++ [target] from among) with pair | last
    · exact front _ _ _ (List.infix_append_of_infix_left (pair_shown type column _ _ name pair))
    · rw [List.mem_singleton.mp last]
      exact front _ _ _ (List.infix_append_of_infix_right (infix_tick target))
  | unknownYearSource type field => exact pair_shown type field _ _
  | unknownType type =>
    intro name among
    rw [List.mem_singleton.mp among]
    exact List.infix_append_of_infix_right (List.infix_refl type)

end CollectionFault

namespace ConfigFault

def names : ConfigFault → List Text
  | collection fault => fault.names
  | unknownSuggestField field => [field]
  | _ => []

theorem names_shown (fault : ConfigFault) : ∀ name ∈ fault.names, name <:+: fault.message := by
  cases fault with
  | collection fault =>
    intro name among
    exact List.infix_append_of_infix_right (fault.names_shown name among)
  | unknownSuggestField field =>
    intro name among
    rw [List.mem_singleton.mp among]
    exact List.infix_append_of_infix_left
      (List.infix_append_of_infix_right (CollectionFault.infix_tick field))
  | _ => simp [names]

end ConfigFault

deriving instance DecidableEq for Dict, FieldSpec, DocumentType, Draft

namespace Settings

/-- Settings are kept as they are given if they obey every rule. Otherwise the answer is the
rule that is broken first, and its message shows the names that break it. -/
theorem settings_checked {source : Text} {draft : Draft}
    (parsed : (Toml.read? source).bind draft? = some draft) :
    (∀ config, read source = .ok config ↔ draft.Sound ∧
      config = ⟨draft.pageSize, draft.suggestSize, draft.suggestFields, ⟨draft.types⟩⟩) ∧
    (∀ fault, read source = .error fault ↔ draft.FirstFault fault) ∧
    ∀ fault, read source = .error fault → ∀ name ∈ fault.names, name <:+: fault.message := by
  have checked : read source = Config.ofDraft draft := by rw [read, parsed]
  rw [checked]
  refine ⟨fun config => Config.ofDraft_eq_ok, fun fault => Config.ofDraft_eq_error, ?_⟩
  exact fun fault _ => fault.names_shown

-- Two columns of the second type lead elsewhere; its years have no source and nothing is known
-- of the field for suggestions.
def lettersSource : Text :=
  Text.joined ['\n']
    (["suggest_fields = ['plaats']", "[[doctypes]]", "name = 'akten'", "[[doctypes.fields]]",
      "name = 'naam'", "[[doctypes]]", "name = 'brieven'", "year_source = 'dag'",
      "[[doctypes.fields]]", "name = 'datum'", "[doctypes.sort_fields]", "plaats = 'naam'",
      "datum = 'jaar'", "aan = 'naam'"].map String.toList)

def deeds : DocumentType := ⟨"akten".toList, none, [⟨"naam".toList, none⟩], .empty, none⟩

def letters : DocumentType :=
  { name := "brieven".toList
    title := none
    fields := [⟨"datum".toList, none⟩]
    sortColumns := .ofPairs [("plaats".toList, "naam".toList), ("datum".toList, Column.year),
      ("aan".toList, "naam".toList)]
    yearSource := some "dag".toList }

/-- The column that comes first among the letters is named, not the one that is written first. -/
theorem settings_checked_letters :
    (Toml.read? lettersSource).bind draft? = some ⟨10, 5, ["plaats".toList], [deeds, letters]⟩ ∧
      read lettersSource = .error (.collection
        (.unsortableTarget "brieven".toList "aan".toList "naam".toList)) := by
  have parsed : (Toml.read? lettersSource).bind draft? =
      some ⟨10, 5, ["plaats".toList], [deeds, letters]⟩ := by decide +kernel
  have before : Collection.Sound [deeds] := Collection.fault_eq_none.mp (by decide)
  have astray : ∀ entry ∈ letters.sortColumns.entries, entry.2 ≠ Column.year →
      entry.1 ≠ "aan".toList → "aan".toList < entry.1 := by decide
  have first : letters.FirstFault
      (.unsortableTarget "brieven".toList "aan".toList "naam".toList) :=
    .target ⟨by decide, by decide⟩ (by decide) (by decide)
      fun later aim maps => astray (later, aim) (Dict.get?_eq_some.mp maps)
  have within : Collection.FirstFault ([deeds] ++ letters :: []) _ :=
    .within before (by decide) first
  exact ⟨parsed, ((settings_checked parsed).2.1 _).mpr (.within (by decide) within)⟩

end Settings

end CardCatalog
