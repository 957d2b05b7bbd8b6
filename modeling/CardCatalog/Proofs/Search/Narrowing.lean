import CardCatalog.Proofs.Index.Search
import CardCatalog.Proofs.Query.Sense
import CardCatalog.Proofs.Search.Faults

/-!
What becomes of a search when something is added to the end of its query. A scope or a
quotation leaves those of the cards that it finds on its own. So does a word, unless there
are words to choose from already; then it is one more of them and leaves every card.
-/

namespace CardCatalog

namespace Query

/-- A query that is one segment and names no years. -/
structure Lone (t : Text) : Prop where
  single : ∀ c ∈ t, isAnd c = false
  yearless : ¬ HasYears t

section Lone

variable {x y t w name : Text}

theorem lone_append (first : Lone x) (second : Lone y) : Lone (x ++ ' ' :: y) where
  single := by
    intro c member
    rcases List.mem_append.mp member with early | late
    · exact first.single c early
    · rcases List.mem_cons.mp late with rfl | behind
      · decide
      · exact second.single c behind
  yearless := by
    intro years
    exact (hasYears_split (by decide) years).elim first.yearless second.yearless

theorem lone_scope (nameable : Nameable name) (yearless : ¬ HasYears name) (value : Lone w) :
    Lone (name ++ ':' :: w) where
  single := by
    intro c member
    rcases List.mem_append.mp member with early | late
    · exact (nameable.2 c early).2.2.2
    · rcases List.mem_cons.mp late with rfl | behind
      · decide
      · exact value.single c behind
  yearless := by
    intro years
    exact (hasYears_split (by decide) years).elim yearless value.yearless

theorem lone_quoted (inside : Lone t) : Lone (Item.quoted t) where
  single := single_quoted inside.single
  yearless := quoted_plain inside.yearless

theorem lone_word (single : ∀ c ∈ w, isAnd c = false)
    (numberless : ∀ a b, Text.isDigit a = true → Text.isDigit b = true → ¬ [a, '-', b] <:+: w) :
    Lone w where
  single := single
  yearless := yearless_of_numberless numberless

variable {fields : SearchFields}

theorem compile_lone (names : ∀ n ∈ fields.scopable, Scope.Plain n) (lone : Lone t) :
    ((∃ compiled, compile fields t = some compiled) ↔ (sense fields.scopable t).Asks) ∧
      ∀ compiled, compile fields t = some compiled →
        compiled.plan = ⟨[group fields (Text.trim t)], none⟩ := by
  have asks := @asks_group fields (Text.trim t)
  rw [sense_trim names] at asks
  rw [← asks, compile_single lone.yearless lone.single, Plan.ofGroups]
  cases shape : group fields (Text.trim t) with
  | nil => simp
  | cons clause rest =>
    simp only [List.filter_singleton, List.isEmpty_cons, Bool.not_false]
    refine ⟨by simp, fun compiled made => ?_⟩
    cases made
    rfl

end Lone

end Query

namespace Holds

variable {columns : List Text} {card : Card}

theorem plan_lone {fields : SearchFields} {t : Text} (types : List Text)
    (names : ∀ n ∈ fields.scopable, Scope.Plain n) :
    plan columns card ⟨[Query.group fields (Text.trim t)], none⟩ types ↔
      (Query.sense fields.scopable t).Fits columns card fields.weighted ∧
        (types = [] ∨ card.type ∈ types) := by
  have fits := @Query.holds_group fields (Text.trim t) columns card
  rw [Query.sense_trim names] at fits
  rw [← fits]
  simp only [plan, List.mem_singleton, forall_eq, clause_iff, List.mem_flatMap]
  grind

end Holds

/-- Every field of the collection can be scoped under its name. -/
def Collection.Scopable (c : Collection) : Prop :=
  ∀ type ∈ c.types, ∀ name ∈ type.fieldNames, Query.Nameable name ∧ ¬ Query.HasYears name

namespace Selection

/-- What a text asks for when it is a query for the selected types. -/
def sense (selection : List DocumentType) (t : Text) : Sense :=
  Query.sense (searchFields selection).scopable t

section Names

variable {c : Collection} {asked : List Text} {selection : List DocumentType}
  (scopable : c.Scopable) (selected : c.select asked = .ok selection)
include scopable selected

theorem nameable : ∀ name ∈ (searchFields selection).scopable,
    Query.Nameable name ∧ ¬ Query.HasYears name := by
  intro name listed
  obtain ⟨type, chosen, field⟩ := type_of_searchFields (List.mem_append_left _ listed)
  exact scopable type (Collection.mem_of_select selected type chosen) name field

theorem plain : ∀ name ∈ (searchFields selection).scopable, Scope.Plain name :=
  Query.plain_of_nameable fun name listed => (nameable scopable selected name listed).1

theorem sense_append {q : Text} (paired : Scope.Paired q) (item : Text) :
    sense selection (q ++ ' ' :: item) = sense selection q ++ sense selection item :=
  Query.sense_append (plain scopable selected) Text.space_blank paired

end Names

end Selection

namespace Catalog

/-- The cards behind the pages of a query for the selected types. There are none if the
query has no search terms or is refused. -/
def answer? (catalog : Catalog) (selection : List DocumentType) (order : Option YearOrder)
    (q : Text) : Option (List Card) :=
  (Query.compile (Selection.searchFields selection) q).bind fun compiled =>
    if (catalog.unknownColumn compiled.plan).isSome then none
    else some ((catalog.ranked compiled.plan (selection.map (·.name)) order).map (·.card))

/-- What is added to a query leaves the cards that it finds on its own. -/
def Narrows (catalog : Catalog) (selection : List DocumentType) (order : Option YearOrder)
    (q item : Text) : Prop :=
  ∃ base one both, catalog.answer? selection order q = some base ∧
    catalog.answer? selection order item = some one ∧
    catalog.answer? selection order (q ++ ' ' :: item) = some both ∧
    ∀ card, card ∈ both ↔ card ∈ base ∧ card ∈ one

/-- What is added to a query leaves every card. -/
def Widens (catalog : Catalog) (selection : List DocumentType) (order : Option YearOrder)
    (q item : Text) : Prop :=
  ∃ base both, catalog.answer? selection order q = some base ∧
    catalog.answer? selection order (q ++ ' ' :: item) = some both ∧ ∀ card ∈ base, card ∈ both

section Answer

variable {catalog : Catalog} {asked : List Text} {selection : List DocumentType}
  {order : Option YearOrder} {q t item name w p : Text}

def Fitting (catalog : Catalog) (selection : List DocumentType) (s : Sense) (card : Card) : Prop :=
  card ∈ catalog.store.cards ∧
    s.Fits catalog.columns card (Selection.searchFields selection).weighted ∧
    (selection.map (·.name) = [] ∨ card.type ∈ selection.map (·.name))

theorem answer_of_compile (reachable : catalog.Reachable)
    (selected : catalog.collection.select asked = .ok selection) (order : Option YearOrder)
    {compiled : Compiled}
    (made : Query.compile (Selection.searchFields selection) q = some compiled) :
    ∃ cards, catalog.answer? selection order q = some cards ∧
      cards.Perm (catalog.holding ⟨compiled.plan, selection.map (·.name), order, 0, 0⟩) := by
  have known := known_of_compile rfl selected made
  have ranked := @ranked_perm catalog
    ⟨compiled.plan, selection.map (·.name), order, 0, 0⟩ _ (retrieve_known known)
    (regular_of_reachable reachable)
  rw [matched_eq_holding (Query.full_of_compile made _)] at ranked
  exact ⟨_, by rw [answer?, made, Option.bind_some, known]; rfl, ranked⟩

section Reachable

variable (reachable : catalog.Reachable) (scopable : catalog.collection.Scopable)
  (selected : catalog.collection.select asked = .ok selection) (order : Option YearOrder)
include reachable scopable selected

theorem answer_of_asks (lone : Query.Lone t) (asks : (Selection.sense selection t).Asks) :
    ∃ cards, catalog.answer? selection order t = some cards ∧
      ∀ card, card ∈ cards ↔ catalog.Fitting selection (Selection.sense selection t) card := by
  have plain := Selection.plain scopable selected
  obtain ⟨compiles, alone⟩ := Query.compile_lone plain lone
  obtain ⟨compiled, made⟩ := compiles.mpr asks
  obtain ⟨cards, answered, among⟩ := answer_of_compile reachable selected order made
  refine ⟨cards, answered, fun card => ?_⟩
  rw [among.mem_iff, holding, List.mem_filter, decide_eq_true_iff, alone compiled made,
    Holds.plan_lone _ plain, Fitting, Selection.sense]

variable (loneQ : Query.Lone q) (paired : Scope.Paired q)
  (asksQ : (Selection.sense selection q).Asks)
include loneQ paired asksQ

theorem answer_of_both (lone : Query.Lone item) :
    ∃ base both, catalog.answer? selection order q = some base ∧
      catalog.answer? selection order (q ++ ' ' :: item) = some both ∧
      (∀ card, card ∈ base ↔ catalog.Fitting selection (Selection.sense selection q) card) ∧
      ∀ card, card ∈ both ↔
        catalog.Fitting selection (Selection.sense selection q ++ Selection.sense selection item)
          card := by
  have sense := Selection.sense_append scopable selected paired item
  have asks : (Selection.sense selection (q ++ ' ' :: item)).Asks := by
    rw [sense]
    exact Sense.asks_append asksQ _
  obtain ⟨base, answered, inBase⟩ :=
    answer_of_asks reachable scopable selected order loneQ asksQ
  obtain ⟨both, answeredBoth, inBoth⟩ :=
    answer_of_asks reachable scopable selected order (Query.lone_append loneQ lone) asks
  exact ⟨base, both, answered, answeredBoth, inBase, sense ▸ inBoth⟩

theorem narrows_of_sense (lone : Query.Lone item) (asks : (Selection.sense selection item).Asks)
    (alone : ¬ ((Selection.sense selection q).Lettered ∧
      (Selection.sense selection item).Lettered)) :
    catalog.Narrows selection order q item := by
  obtain ⟨base, both, answered, answeredBoth, inBase, inBoth⟩ :=
    answer_of_both reachable scopable selected order loneQ paired asksQ lone
  obtain ⟨one, answeredItem, inOne⟩ :=
    answer_of_asks reachable scopable selected order lone asks
  refine ⟨base, one, both, answered, answeredItem, answeredBoth, fun card => ?_⟩
  -- live and of a selected type is said on both sides, what is left is the sense
  rw [inBoth, inBase, inOne, Fitting, Fitting, Fitting, Sense.fits_append alone]
  grind

theorem widens_of_sense (lone : Query.Lone item) {ws : List Text}
    (loose : Selection.sense selection item = ⟨[], [], ws⟩)
    (lettered : (Selection.sense selection q).Lettered) :
    catalog.Widens selection order q item := by
  obtain ⟨base, both, answered, answeredBoth, inBase, inBoth⟩ :=
    answer_of_both reachable scopable selected order loneQ paired asksQ lone
  refine ⟨base, both, answered, answeredBoth, fun card member => ?_⟩
  obtain ⟨live, fits, typed⟩ := (inBase card).mp member
  rw [inBoth, loose]
  exact ⟨live, Sense.fits_more lettered fits ws, typed⟩

theorem narrows_scope (listed : name ∈ (Selection.searchFields selection).scopable)
    (other : name ≠ Scope.everyField) (filled : w ≠ [])
    (solid : ∀ c ∈ w, Text.isBlank c = false ∧ Text.isQuote c = false) (lone : Query.Lone w) :
    catalog.Narrows selection order q (name ++ ':' :: w) := by
  have names := Selection.nameable scopable selected
  have sense : Selection.sense selection (name ++ ':' :: w) = ⟨[⟨name, w⟩], [], []⟩ :=
    Query.sense_scope (fun n among => (names n among).1) listed other filled solid
  obtain ⟨nameable, yearless⟩ := names name listed
  apply narrows_of_sense reachable scopable selected order loneQ paired asksQ
  · exact Query.lone_scope nameable yearless lone
  · rw [sense]
    exact .inl (by simp)
  · rw [sense]
    exact fun both => Sense.unlettered both.2

theorem narrows_quoted (some : ∃ c ∈ p, Text.isBlank c = false) (free : Scope.Unquoted p)
    (lone : Query.Lone p) : catalog.Narrows selection order q (Query.Item.quoted p) := by
  have sense : Selection.sense selection (Query.Item.quoted p) = ⟨[], [Text.words p], []⟩ :=
    Query.sense_quoted _ free
  apply narrows_of_sense reachable scopable selected order loneQ paired asksQ
  · exact Query.lone_quoted lone
  · rw [sense]
    obtain ⟨c, inside, solid⟩ := some
    refine .inr (.inl ⟨_, List.mem_singleton_self _, fun none => ?_⟩)
    exact Text.trim_ne_nil inside solid (Text.trim_eq_nil none)
  · rw [sense]
    exact fun both => Sense.unlettered both.2

theorem word_appended (letter : w.any Text.isAlphanumeric = true)
    (solid : ∀ c ∈ w, Text.isBlank c = false ∧ Text.isQuote c = false) (colonless : ':' ∉ w)
    (single : ∀ c ∈ w, Query.isAnd c = false)
    (numberless : ∀ a b, Text.isDigit a = true → Text.isDigit b = true → ¬ [a, '-', b] <:+: w) :
    ((Selection.sense selection q).Lettered → catalog.Widens selection order q w) ∧
      (¬ (Selection.sense selection q).Lettered → catalog.Narrows selection order q w) := by
  have filled : w ≠ [] := by
    rintro rfl
    cases letter
  have sense : Selection.sense selection w = ⟨[], [], [w]⟩ :=
    Query.sense_word _ filled solid colonless numberless
  have lone := Query.lone_word single numberless
  constructor
  · exact widens_of_sense reachable scopable selected order loneQ paired asksQ lone sense
  · intro silent
    apply narrows_of_sense reachable scopable selected order loneQ paired asksQ lone
    · rw [sense]
      exact .inr (.inr ⟨w, List.mem_singleton_self w, letter⟩)
    · exact fun both => silent both.1

end Reachable

/-- Added behind a query that has its quotes in pairs, a scope or a quotation leaves the
cards that it finds on its own. A word does so if the query has no words to choose from,
and leaves every card if it has. -/
theorem answer_append (reachable : catalog.Reachable) (scopable : catalog.collection.Scopable)
    (selected : catalog.collection.select asked = .ok selection) (order : Option YearOrder)
    (lone : Query.Lone q) (paired : Scope.Paired q) {compiled : Compiled}
    (made : Query.compile (Selection.searchFields selection) q = some compiled) :
    (∀ name w, name ∈ (Selection.searchFields selection).scopable → name ≠ Scope.everyField →
      w ≠ [] → (∀ c ∈ w, Text.isBlank c = false ∧ Text.isQuote c = false) → Query.Lone w →
      catalog.Narrows selection order q (name ++ ':' :: w)) ∧
    (∀ p, (∃ c ∈ p, Text.isBlank c = false) → Scope.Unquoted p → Query.Lone p →
      catalog.Narrows selection order q (Query.Item.quoted p)) ∧
    ∀ w, w.any Text.isAlphanumeric = true →
      (∀ c ∈ w, Text.isBlank c = false ∧ Text.isQuote c = false) → ':' ∉ w →
      (∀ c ∈ w, Query.isAnd c = false) →
      (∀ a b, Text.isDigit a = true → Text.isDigit b = true → ¬ [a, '-', b] <:+: w) →
      ((∃ text weighted, Leaf.fuzzy text weighted ∈ compiled.plan.leaves) →
        catalog.Widens selection order q w) ∧
      ((¬ ∃ text weighted, Leaf.fuzzy text weighted ∈ compiled.plan.leaves) →
        catalog.Narrows selection order q w) := by
  have plain := Selection.plain scopable selected
  obtain ⟨compiles, alone⟩ := Query.compile_lone plain lone
  have asks : (Selection.sense selection q).Asks := compiles.mp ⟨compiled, made⟩
  have fuzzy : (∃ text weighted, Leaf.fuzzy text weighted ∈ compiled.plan.leaves) ↔
      (Selection.sense selection q).Lettered := by
    have leaves := @Query.lettered_iff_fuzzy (Selection.searchFields selection) (Text.trim q)
    rw [Query.sense_trim plain] at leaves
    rw [alone compiled made, Selection.sense, leaves, Plan.leaves, List.flatMap_singleton]
  refine ⟨?_, ?_, ?_⟩
  · intro name w listed other filled solid
    exact narrows_scope reachable scopable selected order lone paired asks listed other filled solid
  · intro p some free
    exact narrows_quoted reachable scopable selected order lone paired asks some free
  · intro w letter solid colonless single numberless
    rw [fuzzy]
    exact word_appended reachable scopable selected order lone paired asks letter solid colonless
      single numberless

/-- Whoever looks for a baker or a house finds every baker. -/
theorem answer_append_register :
    register.Reachable ∧ register.collection.Scopable ∧
      register.Narrows [deeds] none "bakker".toList "koper:jan".toList ∧
      register.Narrows [deeds] none "bakker".toList "\"aan de\"".toList ∧
      register.Widens [deeds] none "bakker".toList "huis".toList ∧
      register.Narrows [deeds] none "\"aan de\"".toList "huis".toList := by
  have reachable : register.Reachable :=
    Session.reachable_after (.create (show Collection.ofTypes [deeds] = .ok ⟨[deeds]⟩ from rfl)) _
  have nameable {name : Text} (filled : name ≠ []) (short : name.length < 9)
      (clean : name.all (fun c => decide (Text.isBlank c = false ∧ Text.isQuote c = false ∧
        c ≠ ':' ∧ Query.isAnd c = false)) = true) : Query.Nameable name ∧ ¬ Query.HasYears name :=
    ⟨⟨filled, Text.forall_of_all clean⟩, Query.short_plain short⟩
  have scopable : register.collection.Scopable := by
    intro type member name field
    rw [List.mem_singleton.mp member] at field
    rcases List.mem_cons.mp field with rfl | last
    · exact nameable (by simp) (by decide) (by decide +kernel)
    · rw [List.mem_singleton.mp last]
      exact nameable (by simp) (by decide) (by decide +kernel)
  have lone {t : Text} (clear : (decide (t.length < 9) && t.all (!Query.isAnd ·)) = true) :
      Query.Lone t := by
    obtain ⟨short, single⟩ := Bool.and_eq_true_iff.mp clear
    refine ⟨fun c member => ?_, Query.short_plain (of_decide_eq_true short)⟩
    simpa using List.all_eq_true.mp single c member
  have word {t : Text} (clear : t.all (fun c => decide (Text.isBlank c = false ∧
      Text.isQuote c = false)) = true) : ∀ c ∈ t, Text.isBlank c = false ∧ Text.isQuote c = false :=
    Text.forall_of_all clear
  have numberless : ∀ a b, Text.isDigit a = true → Text.isDigit b = true →
      ¬ [a, '-', b] <:+: "huis".toList := by
    intro a b _ _ within
    exact absurd (within.subset (by simp : '-' ∈ [a, '-', b])) (by decide)
  have bakker : Query.compile (Selection.searchFields [deeds]) "bakker".toList =
      some ⟨⟨[[.one (.fuzzy "bakker".toList (Selection.weightedFields [deeds]))]], none⟩,
        .ofList ["bakker".toList]⟩ := by rfl
  have quoted : Query.compile (Selection.searchFields [deeds]) "\"aan de\"".toList =
      some ⟨⟨[[.one (.phrase "aan de".toList (Selection.weightedFields [deeds]))]], none⟩,
        .ofList ["aan".toList, "de".toList]⟩ := by rfl
  have selected : register.collection.select [] = .ok [deeds] := rfl
  have unquoted : Scope.Paired "bakker".toList := rfl
  have paired : Scope.Paired "\"aan de\"".toList := rfl
  obtain ⟨scope, quotation, more⟩ :=
    answer_append reachable scopable selected none (lone (by decide)) unquoted bakker
  obtain ⟨_, _, beside⟩ :=
    answer_append reachable scopable selected none (lone (by decide)) paired quoted
  have letters : "huis".toList.any Text.isAlphanumeric = true := by decide +kernel
  have solid := word (t := "huis".toList) (by decide +kernel)
  have single := (lone (t := "huis".toList) (by decide)).single
  have listed : "koper".toList ∈ (Selection.searchFields [deeds]).scopable := by decide
  have free : Scope.Unquoted "aan de".toList := Text.forall_of_all (by decide)
  refine ⟨reachable, scopable, ?_, ?_, ?_, ?_⟩
  · exact scope "koper".toList "jan".toList listed (by decide) (by decide)
      (word (by decide +kernel)) (lone (by decide))
  · exact quotation "aan de".toList ⟨'a', .head _, by decide +kernel⟩ free (lone (by decide))
  · apply (more _ letters solid (by decide) single numberless).1
    exact ⟨_, _, List.mem_singleton_self _⟩
  · apply (beside _ letters solid (by decide) single numberless).2
    rintro ⟨_, _, member⟩
    cases List.mem_singleton.mp member

end Answer

end Catalog

end CardCatalog
