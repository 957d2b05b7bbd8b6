import CardCatalog.Proofs.Collection.Selection
import CardCatalog.Proofs.Query.Clean
import CardCatalog.Proofs.Text.Case

/-!
Which names of fields can be typed. A query is put into lower case, its years are taken out
and it is cut at every `&`, all before a scope is looked for in it; the settings are checked
for none of this. So they may list names that no query reaches, and which these are is said
here exactly.
-/

namespace CardCatalog

namespace Text

def smallLetters : Text := "abcdefghijklmnopqrstuvwxyz".toList

/-- A small letter is none of the signs of a query. -/
structure Inert (c : Char) : Prop where
  settled : Settled c
  solid : isBlank c = false
  unquoted : isQuote c = false
  single : Query.isAnd c = false
  colonless : c ≠ ':'
  dashless : c ≠ '-'

theorem inert_small {c : Char} (small : c ∈ smallLetters) : Inert c := by
  obtain ⟨settled, solid, unquoted, single, colonless, dashless⟩ :=
    forall_of_all (P := fun c => Settled c ∧ isBlank c = false ∧ isQuote c = false ∧
      Query.isAnd c = false ∧ c ≠ ':' ∧ c ≠ '-') (by decide +kernel) c small
  exact ⟨settled, solid, unquoted, single, colonless, dashless⟩

end Text

namespace Scope

variable {known : List Text} {t : Text} {scope : FieldScope}

theorem readAt_length {raw r : Text} (found : ReadAt known t scope raw r) :
    scope.field.length + 1 + scope.value.length ≤ t.length := by
  have there := found.there.length_le
  have value := (inner_within raw).length_le
  rw [← found.value] at value
  simp only [List.length_append, List.length_cons] at there
  omega

-- Behind a quotation there is less room for a scope.
theorem scope_length {raw : Text} (quoted : quotation? t = some raw)
    (member : scope ∈ (split known t).scopes) :
    scope.field.length + 1 + scope.value.length < t.length := by
  obtain ⟨inside, rest, free, rfl, rfl⟩ := quotation_eq_some.mp quoted
  have closed : quotation? ('"' :: (inside ++ ['"'] ++ rest)) = some ('"' :: inside ++ ['"']) := by
    simpa using @quotation_closed inside rest free
  have found := @find_quotation known _ _ _ ([] : Text).getLast? closed
  have pieces := @Scan.behind_token _ (find known) [] ('"' :: inside ++ ['"']) rest _ (by simp) found
  have shape : '"' :: inside ++ '"' :: rest = '"' :: inside ++ ['"'] ++ rest := by simp
  have cut : (split known ('"' :: inside ++ '"' :: rest)).scopes =
      (Scan.values (Scan.behind (find known) 0 ('"' :: inside ++ ['"']).getLast? rest)).filterMap
        scopeOf := by
    rw [split, shape]
    exact (congrArg (fun ps => (Scan.values ps).filterMap scopeOf) pieces).trans
      (values_token _ _ _)
  rw [cut] at member
  obtain ⟨_, _, later⟩ := readAt_of_reads (reads_behind known _ rest) member
  have room := readAt_length later
  simp only [List.length_append, List.length_cons]
  omega

end Scope

namespace Query

open Scope (Unquoted quotation? nameAt)

/-- What a name has to be so that a query can name it. -/
structure Typeable (name : Text) : Prop where
  filled : name ≠ []
  other : name ≠ Scope.everyField
  settled : ∀ c ∈ name, Text.Settled c
  single : ∀ c ∈ name, isAnd c = false
  yearless : ¬ HasYears name
  first : ∀ c ∈ name.head?, Text.isBlank c = false
  -- otherwise the name begins with a quotation, which is passed over
  unquoted : quotation? name = none

section Typed

variable {name w : Text} (small : ∀ c ∈ w, c ∈ Text.smallLetters)
include small

theorem yearless_typed (yearless : ¬ HasYears name) : ¬ HasYears (name ++ ':' :: w) := by
  intro years
  rcases hasYears_split (by decide) years with inside | behind
  · exact yearless inside
  · exact (Text.inert_small (small '-' (dash_of_years behind))).dashless rfl

theorem forall_typed {P : Char → Prop} (colon : P ':') (letter : ∀ c, Text.Inert c → P c)
    (inside : ∀ c ∈ name, P c) : ∀ c ∈ name ++ ':' :: w, P c := by
  intro c member
  rcases List.mem_append.mp member with early | behind
  · exact inside c early
  · rcases List.mem_cons.mp behind with rfl | late
    · exact colon
    · exact letter c (Text.inert_small (small c late))

theorem single_typed (single : ∀ c ∈ name, isAnd c = false) :
    ∀ c ∈ name ++ ':' :: w, isAnd c = false :=
  forall_typed small (by decide) (fun _ letter => letter.single) single

theorem settled_typed (settled : ∀ c ∈ name, Text.Settled c) :
    ∀ c ∈ name ++ ':' :: w, Text.Settled c :=
  forall_typed small (by decide +kernel) (fun _ letter => letter.settled) settled

theorem trim_typed (filled : name ≠ []) (some : w ≠ [])
    (first : ∀ c ∈ name.head?, Text.isBlank c = false) :
    Text.trim (name ++ ':' :: w) = name ++ ':' :: w := by
  have starts : ∀ c ∈ (name ++ ':' :: w).head?, Text.isBlank c = false := by
    rwa [List.head?_append_of_ne_nil _ filled]
  have ends : ∀ c ∈ (name ++ ':' :: w).getLast?, Text.isBlank c = false := by
    intro c last
    have shape : name ++ ':' :: w = name ++ [':'] ++ w := by simp
    rw [shape, List.getLast?_append_of_ne_nil _ some] at last
    exact (Text.inert_small (small c (List.mem_of_getLast? last))).solid
  exact Text.trim_of_ends starts ends

theorem unquoted_word : Unquoted w := fun c member => (Text.inert_small (small c member)).unquoted

theorem quotation_typed (filled : name ≠ []) :
    quotation? (name ++ ':' :: w) = none ↔ quotation? name = none := by
  obtain ⟨c, more, rfl⟩ := List.exists_cons_of_ne_nil filled
  have behind : Unquoted (':' :: w) :=
    @forall_typed [] w small _ (by decide) (fun _ letter => letter.unquoted) (by simp)
  rw [List.cons_append, Scope.quotation_eq_none, Scope.quotation_eq_none]
  refine or_congr_right ⟨fun free d member => free d (List.mem_append_left _ member), ?_⟩
  intro free d member
  exact (List.mem_append.mp member).elim (free d) (behind d)

variable {known : List Text}

/-- A longer name would end at a colon of the word, which has none. -/
theorem nameAt_typed (listed : name ∈ known) (filled : name ≠ []) :
    nameAt known (name ++ ':' :: w) = some name := by
  apply Scope.nameAt_eq_some.mpr
  refine ⟨List.mem_cons_of_mem _ listed, Scope.fits_iff.mpr ⟨filled, w, by simp⟩, ?_⟩
  intro n _ fit
  have start : n ++ [':'] <+: name ++ [':'] ++ w := by simpa using (Scope.fits_iff.mp fit).2
  rcases List.prefix_or_prefix_of_prefix start (List.prefix_append _ w) with within | ⟨z, same⟩
  · simpa using within.length_le
  -- `n` and its colon reach into the word by `z`
  · rcases List.eq_nil_or_concat' z with rfl | ⟨init, c, rfl⟩
    · have lengths := congrArg List.length same
      simp at lengths
      omega
    · rw [← List.append_assoc] at same
      have colon : c = ':' := (List.append_inj' same rfl).2 |> List.singleton_inj.mp
      rw [← same, List.append_assoc, List.prefix_append_right_inj] at start
      have inside : ':' ∈ w := start.subset (by simp [colon])
      exact absurd rfl (Text.inert_small (small ':' inside)).colonless

theorem solid_word : ∀ c ∈ w, Text.isBlank c = false ∧ Text.isQuote c = false := fun c member =>
  have letter := Text.inert_small (small c member)
  ⟨letter.solid, letter.unquoted⟩

theorem split_typed (listed : name ∈ known) (some : w ≠ []) (typeable : Typeable name) :
    Scope.split known (name ++ ':' :: w) = ⟨[⟨name, w⟩], []⟩ := by
  have unquoted := (quotation_typed small typeable.filled).mpr typeable.unquoted
  have named := nameAt_typed small listed typeable.filled
  have value := rawValue_word some (solid_word small)
  have begins : Scope.scopeAt known (name ++ ':' :: w) =
      Option.some (.scope name w, name.length + 1 + w.length) := by
    have behind : (name ++ ':' :: w).drop (name.length + 1) = w := by simp [List.drop_append]
    rw [Scope.scopeAt, named, Option.map_some, behind, value]
  have count : name.length + 1 + w.length = (name ++ ':' :: w).length := by
    simp
    omega
  have found := Scope.find_opens .start unquoted (fun lead => absurd rfl lead) begins
  rw [List.length_nil, Nat.zero_add, count] at found
  have long : name ++ ':' :: w ≠ [] := by simp
  have pieces : Scan.pieces (Scope.find known) (name ++ ':' :: w) =
      [.token (.scope name w) (name ++ ':' :: w)] := by
    have token := @Scan.behind_token _ (Scope.find known) [] _ [] _ long (by simpa using found)
    rwa [List.append_nil] at token
  have inner := inner_word (solid_word small)
  rw [Scope.split, pieces]
  simp [Scan.values, Piece.value?, Scope.scopeOf, Scope.leftoverOf, typeable.other, inner, some]
  rfl

variable {fields : SearchFields} {compiled : Compiled}

theorem compile_typed (listed : name ∈ fields.scopable) (some : w ≠ [])
    (typeable : Typeable name) :
    compile fields (Text.lower (name ++ ':' :: w)) =
      Option.some ⟨⟨[[.one (.field name w)]], none⟩, .ofList [w]⟩ := by
  have cut : parts fields (name ++ ':' :: w) = ⟨[⟨name, w⟩], []⟩ := by
    rw [parts, if_pos (by simp), split_typed small listed some typeable]
  have grouped : group fields (name ++ ':' :: w) = [.one (.field name w)] := by
    rw [group, cut]
    rfl
  have word : Text.keywords w = [w] := by
    have solid : ∀ c ∈ w, Text.isBlank c = false := fun c member =>
      (Text.inert_small (small c member)).solid
    rw [Text.keywords_solid solid, Text.stripped_self (unquoted_word small)]
    simp [some]
  have words : keywords fields (name ++ ':' :: w) = [w] := by
    rw [keywords, cut]
    simp only [List.flatMap_singleton, word]
    rfl
  rw [Text.lower_settled (settled_typed small typeable.settled),
    compile_single (yearless_typed small typeable.yearless) (single_typed small typeable.single),
    trim_typed small typeable.filled some typeable.first, grouped, words]
  rfl

omit small in
theorem scope_of_groups {q : Text} (made : compile fields q = Option.some compiled)
    (asks : compiled.plan.groups = [[.one (.field name w)]]) :
    ∃ s ∈ segments (YearRange.extract q).2,
      ⟨name, w⟩ ∈ (Scope.split fields.scopable s).scopes := by
  have among : [.one (.field name w)] ∈
      ((segments (YearRange.extract q).2).map (group fields)).filter (!·.isEmpty) := by
    rw [← (compile_groups made).1, asks]
    exact List.mem_singleton_self _
  obtain ⟨s, listed, grouped⟩ := List.mem_map.mp (List.mem_filter.mp among).1
  have leaf : Leaf.field name w ∈ (group fields s).flatMap Clause.leaves := by
    rw [grouped]
    exact List.mem_singleton_self _
  rcases mem_group_leaves.mp leaf with ⟨scope, member, same⟩ | ⟨_, _, _, same⟩ | ⟨_, same⟩
  · cases same
    refine ⟨s, listed, ?_⟩
    rw [parts] at member
    split at member
    · exact member
    · cases member
  · cases same
  · cases same

omit small in
theorem settled_segment {q s : Text} (listed : s ∈ segments (YearRange.extract (Text.lower q)).2) :
    ∀ c ∈ s, Text.Settled c := by
  intro c member
  rcases YearRange.mem_extract ((segment_within listed).2.subset member) with rfl | typed
  · decide +kernel
  · exact Text.settled_of_mem_lower typed

omit small in
theorem segment_of_single {s t : Text} (single : ∀ c ∈ t, isAnd c = false)
    (listed : s ∈ segments t) : s = Text.trim t := by
  rw [segments, Text.splitOn_eq_self single] at listed
  exact List.mem_singleton.mp (List.mem_filter.mp listed).1

theorem typeable_of_compile
    (made : compile fields (Text.lower (name ++ ':' :: w)) = Option.some compiled)
    (asks : compiled.plan.groups = [[.one (.field name w)]]) : Typeable name := by
  obtain ⟨s, listed, member⟩ := scope_of_groups made asks
  obtain ⟨raw, r, found⟩ := Scope.readAt_of_reads (Scope.reads_pieces _ s) member
  have inside : name <:+: s :=
    List.IsInfix.trans ⟨[], ':' :: raw ++ r, by simp⟩ found.there.isInfix
  have clean := (clean_segment listed).within inside
  have settled : ∀ c ∈ name, Text.Settled c := fun c kept =>
    settled_segment listed c (inside.subset kept)
  have filled := (Scope.fits_iff.mp (Scope.nameAt_eq_some.mp found.named).2.1).1
  -- so the query is typed as it is written, and it is its only segment
  rw [Text.lower_settled (settled_typed small settled),
    extract_plain (yearless_typed small clean.yearless)] at listed
  obtain rfl := segment_of_single (single_typed small clean.single) listed
  -- a scope of this length takes all of it, from the first character on
  have whole : Text.trim (name ++ ':' :: w) = name ++ ':' :: w := by
    have within := Text.trim_within (name ++ ':' :: w)
    have room : name.length + 1 + w.length ≤ _ := Scope.readAt_length found
    refine within.eq_of_length (Nat.le_antisymm within.length_le ?_)
    simp only [List.length_append, List.length_cons]
    omega
  have starts := (Text.stripped_ends Text.isBlank (name ++ ':' :: w)).1
  rw [← Text.trim, whole, List.head?_append_of_ne_nil _ filled] at starts
  refine ⟨filled, found.other, settled, clean.single, clean.yearless, starts, ?_⟩
  rw [← quotation_typed small filled]
  cases quoted : quotation? (name ++ ':' :: w) with
  | none => rfl
  | some =>
    rw [whole] at member
    have short : name.length + 1 + w.length < _ := Scope.scope_length quoted member
    simp only [List.length_append, List.length_cons] at short
    omega

end Typed

end Query

namespace Search

variable {config : Config}

/-- A field of a type can be named if its name is typeable, and only then. -/
theorem field_typed (accepted : config.Accepted) {type : DocumentType}
    (among : type ∈ config.collection.types) {name w : Text} (listed : name ∈ type.fieldNames)
    (some : w ≠ []) (small : ∀ c ∈ w, c ∈ Text.smallLetters) :
    config.collection.select [type.name] = .ok [type] ∧
      (Query.Typeable name →
        Query.compile (Selection.searchFields [type]) (Text.lower (name ++ ':' :: w)) =
          Option.some ⟨⟨[[.one (.field name w)]], none⟩, .ofList [w]⟩) ∧
      ∀ compiled, Query.compile (Selection.searchFields [type]) (Text.lower (name ++ ':' :: w)) =
          Option.some compiled →
        compiled.plan.groups = [[.one (.field name w)]] → Query.Typeable name := by
  have chosen : config.collection.select [type.name] = .ok [type] := by
    have found := Collection.get?_of_mem (Collection.names_nodup accepted.valid) among
    rw [Collection.select, if_neg (by simp)]
    exact Collection.selected_cons.mpr ⟨type, [], found, rfl, rfl⟩
  have scopable : name ∈ (Selection.searchFields [type]).scopable := by
    refine WordSet.mem_ofList.mpr ?_
    rwa [List.flatMap_singleton]
  refine ⟨chosen, Query.compile_typed small scopable some, fun compiled made asks => ?_⟩
  exact Query.typeable_of_compile small made asks

def deeds : DocumentType :=
  { name := "akten".toList
    title := none
    fields := [⟨"oude naam:".toList, none⟩, ⟨"Naam".toList, none⟩]
    sortColumns := .empty
    yearSource := none }

def deedsConfig : Config := ⟨10, 5, [], ⟨[deeds]⟩⟩

theorem deeds_accepted : deedsConfig.Accepted := ⟨⟨10, 5, [], [deeds]⟩, by rfl⟩

/-- The capital of the name is put into lower case with the query, and there is no such
field then. -/
theorem capital_not_typed :
    deedsConfig.Accepted ∧ deeds ∈ deedsConfig.collection.types ∧
      "Naam".toList ∈ deeds.fieldNames ∧ (∀ c ∈ "jan".toList, c ∈ Text.smallLetters) ∧
      ∃ compiled, Query.compile (Selection.searchFields [deeds])
          (Text.lower ("Naam".toList ++ ':' :: "jan".toList)) = some compiled ∧
        compiled.plan.groups ≠ [[.one (.field "Naam".toList "jan".toList)]] := by
  have asked : (Query.compile (Selection.searchFields [deeds])
      (Text.lower ("Naam".toList ++ ':' :: "jan".toList))).map (·.plan.leaves.map Leaf.text) =
        some ["naam:jan".toList] := by
    decide +kernel
  obtain ⟨compiled, made, texts⟩ := Option.map_eq_some_iff.mp asked
  refine ⟨deeds_accepted, List.mem_singleton_self _, by decide,
    Text.forall_of_all (by decide), compiled, made, ?_⟩
  intro groups
  rw [Plan.leaves, groups] at texts
  exact absurd texts (by decide)

/-- Blanks and colons in a name do no harm. -/
theorem field_typed_spaced :
    deedsConfig.Accepted ∧ deeds ∈ deedsConfig.collection.types ∧
      "oude naam:".toList ∈ deeds.fieldNames ∧ Query.Typeable "oude naam:".toList ∧
      Query.compile (Selection.searchFields [deeds])
          (Text.lower ("oude naam:".toList ++ ':' :: "jan".toList)) =
        some ⟨⟨[[.one (.field "oude naam:".toList "jan".toList)]], none⟩, .ofList ["jan".toList]⟩ := by
  have typeable : Query.Typeable "oude naam:".toList :=
    { filled := by decide
      other := by decide
      settled := Text.forall_of_all (by decide +kernel)
      single := Text.forall_of_all (by decide +kernel)
      yearless := fun years => absurd (Query.dash_of_years years) (by decide)
      first := by
        intro c head
        cases head
        decide +kernel
      unquoted := by decide +kernel }
  have listed : "oude naam:".toList ∈ deeds.fieldNames := by decide
  have small : ∀ c ∈ "jan".toList, c ∈ Text.smallLetters := Text.forall_of_all (by decide)
  have among : deeds ∈ deedsConfig.collection.types := List.mem_singleton_self _
  obtain ⟨_, typed, _⟩ := field_typed deeds_accepted among listed (by decide) small
  exact ⟨deeds_accepted, among, listed, typeable, typed typeable⟩

end Search

end CardCatalog
