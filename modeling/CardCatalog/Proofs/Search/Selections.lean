import CardCatalog.Proofs.Search.Narrowing

/-!
A search for the same types in another order, or with some of them named twice. The order
of a selection decides how the weighted fields are ordered and merged, but not which they
are. So the same queries compile, with the same keywords, and find the same cards; only the
scores differ, and where a year decides the order the page is the same.
-/

namespace CardCatalog

namespace Holds

theorem leaf_names {columns : List Text} {card : Card} {one other : List WeightedField}
    (same : ∀ name, name ∈ one.map (·.name) ↔ name ∈ other.map (·.name)) (t : Text) :
    (leaf columns card (.phrase t one) ↔ leaf columns card (.phrase t other)) ∧
      (leaf columns card (.fuzzy t one) ↔ leaf columns card (.fuzzy t other)) := by
  have named (fields : List WeightedField) (P : Text → Prop) :
      (∃ field ∈ fields, P field.name) ↔ ∃ name ∈ fields.map (·.name), P name := by simp
  constructor
  · rw [leaf, leaf, named one fun name => name ∈ columns ∧ _ ∧ together card name _,
      named other fun name => name ∈ columns ∧ _ ∧ together card name _]
    simp only [same]
  · rw [leaf, leaf, named one fun name => name ∈ columns ∧ ∃ term ∈ _, has card name term,
      named other fun name => name ∈ columns ∧ ∃ term ∈ _, has card name term]
    simp only [same]

end Holds

theorem Sense.fits_names {columns : List Text} {card : Card} {one other : List WeightedField}
    (same : ∀ name, name ∈ one.map (·.name) ↔ name ∈ other.map (·.name)) (s : Sense) :
    s.Fits columns card one ↔ s.Fits columns card other := by
  have leaves (t : Text) := @Holds.leaf_names columns card one other same t
  constructor
  · rintro ⟨scopes, phrases, loose⟩
    refine ⟨scopes, fun ws member filled => (leaves _).1.mp (phrases ws member filled), ?_⟩
    intro lettered
    obtain ⟨w, member, found⟩ := loose lettered
    exact ⟨w, member, (leaves w).2.mp found⟩
  · rintro ⟨scopes, phrases, loose⟩
    refine ⟨scopes, fun ws member filled => (leaves _).1.mpr (phrases ws member filled), ?_⟩
    intro lettered
    obtain ⟨w, member, found⟩ := loose lettered
    exact ⟨w, member, (leaves w).2.mpr found⟩

namespace Query

/-- What a plan looks for in a column. -/
def Seeks (plan : Plan) (column term : Text) : Prop :=
  ∃ leaf ∈ plan.leaves, column ∈ leaf.columns ∧ term ∈ Analysis.terms leaf.text

theorem seeks_group {fields : SearchFields} {segment column term : Text} :
    (∃ leaf ∈ (group fields segment).flatMap Clause.leaves,
        column ∈ leaf.columns ∧ term ∈ Analysis.terms leaf.text) ↔
      (∃ scope ∈ (parts fields segment).scopes,
        column = scope.field ∧ term ∈ Analysis.terms scope.value) ∨
      column ∈ fields.weighted.map (·.name) ∧
        ((∃ v ∈ Phrase.phrases (parts fields segment).leftover, v ≠ [] ∧
          term ∈ Analysis.terms v) ∨
        (sense fields.scopable segment).Lettered ∧
          term ∈ Analysis.terms (Phrase.loose (parts fields segment).leftover)) := by
  constructor
  · rintro ⟨leaf, member, inside, found⟩
    rcases mem_group_leaves.mp member with
      ⟨scope, listed, rfl⟩ | ⟨v, among, filled, rfl⟩ | ⟨lettered, rfl⟩
    · exact .inl ⟨scope, listed, List.mem_singleton.mp inside, found⟩
    · exact .inr ⟨inside, .inl ⟨v, among, filled, found⟩⟩
    · exact .inr ⟨inside, .inr ⟨lettered, found⟩⟩
  · rintro (⟨scope, listed, rfl, found⟩ | ⟨inside, ⟨v, among, filled, found⟩ | ⟨lettered, found⟩⟩)
    · exact ⟨_, mem_group_leaves.mpr (.inl ⟨scope, listed, rfl⟩), List.mem_singleton_self _, found⟩
    · exact ⟨_, mem_group_leaves.mpr (.inr (.inl ⟨v, among, filled, rfl⟩)), inside, found⟩
    · exact ⟨_, mem_group_leaves.mpr (.inr (.inr ⟨lettered, rfl⟩)), inside, found⟩

section Congr

variable {first second : SearchFields} {q : Text} (scopable : first.scopable = second.scopable)
include scopable

theorem parts_congr (segment : Text) : parts first segment = parts second segment := by
  rw [parts, parts, scopable]

theorem compiles_congr (q : Text) : (∃ compiled, compile first q = some compiled) ↔
    ∃ compiled, compile second q = some compiled := by
  rw [compiles_iff (Prod.eta _).symm, compiles_iff (Prod.eta _).symm, scopable]

variable {one two : Compiled} (made : compile first q = some one)
  (other : compile second q = some two)
include made other

theorem keywords_congr : one.keywords = two.keywords := by
  have each : keywords first = keywords second := by
    funext segment
    rw [keywords, keywords, parts_congr scopable]
  rw [keywords_of_compile made, keywords_of_compile other, each]

variable (weighted : ∀ name,
  name ∈ first.weighted.map (·.name) ↔ name ∈ second.weighted.map (·.name))
include weighted

theorem seeks_congr (column term : Text) :
    Seeks one.plan column term ↔ Seeks two.plan column term := by
  have flat {compiled : Compiled} {fields : SearchFields}
      (made : compile fields q = some compiled) :
      Seeks compiled.plan column term ↔ ∃ segment ∈ segments (YearRange.extract q).2,
        ∃ leaf ∈ (group fields segment).flatMap Clause.leaves,
          column ∈ leaf.columns ∧ term ∈ Analysis.terms leaf.text := by
    rw [Seeks, leaves_of_compile made]
    simp only [List.mem_flatMap]
    grind
  rw [flat made, flat other]
  simp only [seeks_group, parts_congr scopable, weighted, scopable]

theorem plan_congr {columns : List Text} {card : Card} {types others : List Text}
    (same : ∀ type, type ∈ types ↔ type ∈ others) :
    Holds.plan columns card one.plan types ↔ Holds.plan columns card two.plan others := by
  have empty : types = [] ↔ others = [] := by
    rw [List.eq_nil_iff_forall_not_mem, List.eq_nil_iff_forall_not_mem]
    simp only [same]
  rw [plan_iff (Prod.eta _).symm made, plan_iff (Prod.eta _).symm other, same, empty, scopable]
  simp only [Sense.fits_names weighted]

end Congr

end Query

namespace Ranking

-- A ranking by year does not look at the scores.
theorem rank_congr (order : YearOrder) {one other : List Matching.Found}
    (same : one.map (·.card) = other.map (·.card)) :
    (rank (some order) one).map (·.card) = (rank (some order) other).map (·.card) := by
  obtain ⟨le, cards⟩ : ∃ le : Card → Card → Bool, ∀ found : List Matching.Found,
      (rank (some order) found).map (·.card) = (found.map (·.card)).mergeSort le := by
    cases order with
    | ascending =>
      exact ⟨fun a b => decide (a.year.getD Word.highestSigned ≤ b.year.getD Word.highestSigned),
        fun found => List.map_mergeSort fun _ _ _ _ => rfl⟩
    | descending =>
      exact ⟨fun a b => decide (b.year.getD Word.lowestSigned ≤ a.year.getD Word.lowestSigned),
        fun found => List.map_mergeSort fun _ _ _ _ => rfl⟩
  rw [cards, cards, same]

end Ranking

namespace Catalog

variable {catalog : Catalog} {one two : Plan}

theorem mem_termsOn {plan : Plan} {column term : Text} :
    term ∈ termsOn plan column ↔ Query.Seeks plan column term := by
  rw [termsOn, List.mem_flatMap, Query.Seeks]
  refine exists_congr fun leaf => and_congr_right fun _ => ?_
  have chosen (on : Bool) (terms : List Text) :
      term ∈ (if on then terms else []) ↔ on = true ∧ term ∈ terms := by
    cases on <;> simp
  cases leaf with
  | field name value => rw [chosen, beq_iff_eq, Leaf.columns, List.mem_singleton, eq_comm]
  | phrase text fields => simp [Leaf.columns]
  | fuzzy text fields => simp [Leaf.columns]

theorem found_congr (regular : catalog.Regular) {types others : List Text}
    (fullOne : one.Full types) (fullTwo : two.Full others)
    (knownOne : catalog.unknownColumn one = none) (knownTwo : catalog.unknownColumn two = none)
    (holds : ∀ card, Holds.plan catalog.columns card one types ↔
      Holds.plan catalog.columns card two others) :
    (Matching.found catalog.store catalog.columns one types).map (·.card) =
      (Matching.found catalog.store catalog.columns two others).map (·.card) := by
  have covered : ∀ s ∈ catalog.store.segments, ∀ name ∈ catalog.columns, name ∈ s.columns :=
    fun s inside name column => regular.segments s inside ▸ regular.columns name column
  rw [Matching.cards_found _ _ covered ((catalog.unknownColumn_eq_none one).mp knownOne),
    Matching.cards_found _ _ covered ((catalog.unknownColumn_eq_none two).mp knownTwo)]
  simp only [fullOne, fullTwo, holds]

theorem length_ranked {types others : List Text}
    (same : (Matching.found catalog.store catalog.columns one types).map (·.card) =
      (Matching.found catalog.store catalog.columns two others).map (·.card))
    (order other : Option YearOrder) :
    (catalog.ranked one types order).length = (catalog.ranked two others other).length := by
  have counted := congrArg List.length same
  rw [List.length_map, List.length_map] at counted
  rw [ranked, ranked, (Ranking.rank_perm _ _).length_eq, counted, (Ranking.rank_perm _ _).length_eq]

theorem hits_congr
    (seeks : ∀ column term, Query.Seeks one column term ↔ Query.Seeks two column term)
    (order : YearOrder) {first second : List Matching.Found}
    (same : first.map (·.card) = second.map (·.card)) :
    first.map (catalog.hit one (some order)) = second.map (catalog.hit two (some order)) := by
  have share : catalog.share one = catalog.share two := by
    funext column term
    have terms : (termsOn one column).contains term = (termsOn two column).contains term := by
      rw [Bool.eq_iff_iff, List.contains_iff_mem, List.contains_iff_mem, mem_termsOn, mem_termsOn,
        seeks]
    rw [share, share, terms]
  have shown (plan : Plan) : catalog.hit plan (some order) = (fun card : Card =>
      { card := catalog.shown card
        score := none
        highlights := (catalog.shown card).fields.filterMap fun column text =>
          Highlight.ofText (catalog.share plan column) text }) ∘ Matching.Found.card := rfl
  rw [shown, shown, share, ← List.map_map, ← List.map_map, same]

end Catalog

namespace Search

variable {config : Config} {catalog : Catalog}

/-- Two searches that differ in the order of the types they name, or in how often, come to
the same keywords, total and pages, and to the same hits where a year decides the order. -/
theorem run_same_types (accepted : config.Accepted) (reachable : catalog.Reachable)
    (opened : catalog.collection = config.collection) (params : SearchParams) (types : List Text)
    (known : ∀ name ∈ params.types ++ types, name ∈ config.collection.typeNames)
    (same : ∀ name, name ∈ config.collection.asked params.types ↔
      name ∈ config.collection.asked types) :
    (run config catalog params = .ok (.empty params.query) ∧
      run config catalog { params with types } = .ok (.empty params.query)) ∨
    ∃ one other, run config catalog params = .ok (.results one) ∧
      run config catalog { params with types } = .ok (.results other) ∧
      one.keywords = other.keywords ∧ one.total = other.total ∧ one.pages = other.pages ∧
      ∀ selection order, config.collection.select params.types = .ok selection →
        params.sort.bind (YearOrder.resolve selection) = some order → one.hits = other.hits := by
  have valid := accepted.valid
  obtain ⟨first, chosen⟩ := Collection.select_of_known fun name among =>
    known name (List.mem_append_left types among)
  obtain ⟨second, chosenToo⟩ := Collection.select_of_known fun name among =>
    known name (List.mem_append_right params.types among)
  have members : ∀ type, type ∈ first ↔ type ∈ second := by
    intro type
    rw [Collection.mem_select valid chosen, Collection.mem_select valid chosenToo, same]
  have scopable :
      (Selection.searchFields first).scopable = (Selection.searchFields second).scopable :=
    Selection.fieldNames_congr members
  have weighted := Selection.weighted_congr members
  have sound : ∀ type ∈ first, type.fault = none := fun type among =>
    Collection.fault_of_mem (Collection.ofTypes_ok valid).2.2 type
      ((Collection.mem_select valid chosen).mp among).1
  by_cases asks : ∃ one, Query.compile (Selection.searchFields first)
      (Text.lower params.query) = some one
  · obtain ⟨one, made⟩ := asks
    obtain ⟨two, madeToo⟩ := (Query.compiles_congr scopable _).mp ⟨one, made⟩
    have knownOne := Catalog.known_of_compile opened chosen made
    have knownTwo := Catalog.known_of_compile opened chosenToo madeToo
    have found := Catalog.found_congr (Catalog.regular_of_reachable reachable)
      (Query.full_of_compile made _) (Query.full_of_compile madeToo _) knownOne knownTwo
      fun card => Query.plan_congr scopable made madeToo weighted (Selection.names_congr members)
    -- a sort key means the same in both, as the types that have it are the same
    have resolved : params.sort.bind (YearOrder.resolve second) =
        params.sort.bind (YearOrder.resolve first) := by
      cases params.sort with
      | none => rfl
      | some spec => exact (Selection.resolve_congr members sound spec).symm
    have total := Catalog.length_ranked found (params.sort.bind (YearOrder.resolve first))
      (params.sort.bind (YearOrder.resolve second))
    refine .inr ⟨_, _, run_of_answered ⟨chosen, made, Catalog.retrieve_known knownOne⟩,
      run_of_answered ⟨chosenToo, madeToo, Catalog.retrieve_known knownTwo⟩, ?_, total, ?_, ?_⟩
    · exact Query.keywords_congr scopable made madeToo
    · exact congrArg (fun total => Paging.pages
        (Paging.window total (max params.page 1) config.pageSize)) total
    · intro selection order picked byYear
      cases chosen.symm.trans picked
      have hits := @Catalog.hits_congr catalog _ _
        (Query.seeks_congr scopable made madeToo weighted)
        order _ _ (Ranking.rank_congr order found)
      have window := congrArg (Ranking.window · (Word.mul (max params.page 1 - 1) config.pageSize)
        config.pageSize) hits
      simpa only [page, request, Catalog.ranked, resolved, byYear] using window
  · have none {selection : List DocumentType} (asks : ¬ ∃ one, Query.compile
        (Selection.searchFields selection) (Text.lower params.query) = some one) :
        Query.compile (Selection.searchFields selection) (Text.lower params.query) = none :=
      Option.eq_none_iff_forall_ne_some.mpr fun one made => asks ⟨one, made⟩
    have noneToo := none fun two => asks ((Query.compiles_congr scopable _).mpr two)
    exact .inl ⟨by simp only [run, chosen, none asks], by simp only [run, chosenToo, noneToo]⟩

-- Two kinds of books in which a name weighs differently.
def daybook : DocumentType :=
  { ledger with name := "dagboek".toList, fields := [⟨"naam".toList, some 2⟩] }

def shelfConfig : Config := ⟨1, 5, [], ⟨[ledger, daybook]⟩⟩

def shelf : Catalog :=
  Session.after (.create ⟨[ledger, daybook]⟩)
    [account "1" (some 1700), account "2" (some 1600),
      .add ⟨"3".toList, daybook.name, none, Dict.empty.insert "naam".toList "jan".toList⟩, .commit]

-- The kinds in another order, one of them twice.
def shuffled : SearchParams :=
  ⟨"Jan".toList, ["dagboek", "kasboek", "dagboek"].map String.toList, some "jaar".toList, 1⟩

theorem run_same_types_shelf :
    shelfConfig.Accepted ∧ shelf.Reachable ∧ shelf.collection = shelfConfig.collection ∧
      ∃ one other, run shelfConfig shelf shuffled = .ok (.results one) ∧
        run shelfConfig shelf { shuffled with types := [] } = .ok (.results other) ∧
        one.total = 3 ∧ one.total = other.total ∧ one.hits = other.hits := by
  have accepted : shelfConfig.Accepted := ⟨⟨1, 5, [], [ledger, daybook]⟩, rfl⟩
  have reachable : shelf.Reachable :=
    Session.reachable_after (.create (show Collection.ofTypes [ledger, daybook] =
      .ok ⟨[ledger, daybook]⟩ from rfl)) _
  have opened : shelf.collection = shelfConfig.collection := rfl
  have same : ∀ name, name ∈ shelfConfig.collection.asked shuffled.types ↔
      name ∈ shelfConfig.collection.asked [] := by
    intro name
    have all : shelfConfig.collection.asked [] = ["kasboek".toList, "dagboek".toList] := rfl
    have listed : shelfConfig.collection.asked shuffled.types =
      ["dagboek".toList, "kasboek".toList, "dagboek".toList] := rfl
    rw [all, listed]
    simp only [List.mem_cons, List.not_mem_nil, or_false]
    constructor
    · rintro (day | cash | day)
      exacts [.inr day, .inl cash, .inr day]
    · rintro (cash | day)
      exacts [.inr (.inl cash), .inl day]
  have made : Query.compile (Selection.searchFields [daybook, ledger, daybook])
      (Text.lower shuffled.query) = some ⟨⟨[[.one (.fuzzy "jan".toList
        (Selection.weightedFields [daybook, ledger, daybook]))]], none⟩, .ofList ["jan".toList]⟩ := by
    rfl
  have selected : shelfConfig.collection.select shuffled.types = .ok [daybook, ledger, daybook] := rfl
  have known := Catalog.known_of_compile opened selected made
  have ran := run_of_answered ⟨selected, made, Catalog.retrieve_known known⟩
  rcases run_same_types accepted reachable opened shuffled [] (by decide) same with
    ⟨empty, _⟩ | ⟨one, other, first, second, _, total, _, hits⟩
  · rw [ran] at empty
    cases empty
  · refine ⟨accepted, reachable, opened, one, other, first, second, ?_, total, ?_⟩
    · cases first.symm.trans ran
      exact (Ranking.rank_perm _ _).length_eq.trans (by decide +kernel)
    · exact hits _ .ascending selected (by decide +kernel)

end Search

end CardCatalog
