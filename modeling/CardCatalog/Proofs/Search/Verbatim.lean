import CardCatalog.Proofs.Collection.Accepted
import CardCatalog.Proofs.Query.Quotation
import CardCatalog.Proofs.Query.RoundTrip
import CardCatalog.Proofs.Search.Pages

/-!
Quoting a card finds it. What is cut out of a stored text between two of its runs is
asked for as a phrase, whose terms stand in the text one behind the other, as long as
lower case does not come between: it is applied to a query at once, and to the text
of a card run by run.
-/

namespace CardCatalog

theorem Query.hasYears_map {f : Char → Char} (digits : ∀ c, Text.isDigit (f c) = Text.isDigit c)
    (hyphen : ∀ c, f c = '-' → c = '-') {t : Text} (years : HasYears (t.map f)) : HasYears t := by
  obtain ⟨first, last, four, other, within⟩ := years
  obtain ⟨part, inside, same⟩ := List.infix_map_iff.mp within
  obtain ⟨a, rest, rfl, rfl, behind⟩ := List.map_eq_append_iff.mp same.symm
  obtain ⟨c, b, rfl, dash, rfl⟩ := List.map_eq_cons_iff.mp behind
  have written : ∀ {u : Text}, FourDigits (u.map f) → FourDigits u := by
    intro u ⟨length, all⟩
    refine ⟨by simpa using length, fun d member => ?_⟩
    rw [← digits]
    exact all (f d) (List.mem_map_of_mem member)
  refine ⟨a, b, written four, written other, ?_⟩
  rw [← hyphen c dash]
  exact inside

namespace Search

variable {config : Config} {catalog : Catalog} {params : SearchParams}
  {selection : List DocumentType}

/-- What is to be known about a text to ask for it in quotes. -/
structure Citable (t : Text) : Prop where
  unquoted : Scope.Unquoted t
  single : ∀ c ∈ t, Query.isAnd c = false
  yearless : ¬ Query.HasYears t
  some : Analysis.terms t ≠ []

theorem compile_citation {t : Text} (citable : Citable t) (verbatim : Analysis.Verbatim t)
    (fields : SearchFields) :
    ∃ v keywords, Analysis.terms v = Analysis.terms t ∧
      Query.compile fields (Text.lower (Query.Item.quoted t)) =
        Option.some ⟨.phrase v fields.weighted, keywords⟩ := by
  have small := Analysis.lower_eq_map verbatim
  have signs : ∀ c ∈ Text.lower t, ∃ d ∈ t, Text.small d = c := by
    rw [small]
    exact fun c member => List.mem_map.mp member
  have unquoted : Scope.Unquoted (Text.lower t) := by
    intro c member
    obtain ⟨d, inside, rfl⟩ := signs c member
    have same : Text.small d = '"' ↔ d = '"' := Text.small_eq_iff (by decide) d
    simpa [Text.isQuote, same] using citable.unquoted d inside
  have single : ∀ c ∈ Text.lower t, Query.isAnd c = false := by
    intro c member
    obtain ⟨d, inside, rfl⟩ := signs c member
    have same : Text.small d = '&' ↔ d = '&' := Text.small_eq_iff (by decide) d
    simpa [Query.isAnd, same] using citable.single d inside
  have yearless : ¬ Query.HasYears (Text.lower t) := by
    rw [small]
    intro years
    exact citable.yearless (Query.hasYears_map Text.isDigit_small
      (fun c => (Text.small_eq_iff (by decide) c).mp) years)
  have some : Analysis.runs (Text.lower t) ≠ [] := by
    intro none
    have same : Analysis.terms (Text.lower t) = Analysis.terms t :=
      Analysis.terms_of_lower verbatim rfl
    rw [Analysis.terms, none] at same
    exact citable.some same.symm
  obtain ⟨v, same, made⟩ := Query.compile_quotation unquoted single yearless some fields
  have whole := congrArg (Query.compile fields) (Text.lower_quoted t)
  exact ⟨v, _, Analysis.terms_of_lower verbatim same, whole.trans made⟩

theorem holds_citation {card : Card} {type : DocumentType} {field : Text} {weight : Float32}
    {t v before after : Text} (chosen : type ∈ selection) (ofType : card.type = type.name)
    (weighted : (field, weight) ∈ type.weightedFields) {columns : List Text}
    (visible : field ∈ columns)
    (stored : card.fields.get? field = some (before ++ t ++ after))
    (front : Analysis.Apart before t) (back : Analysis.Apart (before ++ t) after)
    (citable : Citable t) (verbatim : Analysis.Verbatim t)
    (same : Analysis.terms v = Analysis.terms t) :
    Holds.plan columns card (.phrase v (Selection.searchFields selection).weighted)
      (selection.map (·.name)) := by
  obtain ⟨found, listed, name⟩ := Selection.mem_weightedFields chosen weighted
  have slots : Holds.slots card field = Analysis.slots before ++ Analysis.slots t ++
      Analysis.slots after := by
    rw [Holds.slots, stored, Option.map_some, Option.getD_some, Analysis.slots_append back,
      Analysis.slots_append front]
  have together : Holds.together card field (Analysis.terms t) := by
    rw [Holds.together, slots]
    exact (Analysis.terms_infix_slots verbatim).trans (List.infix_append _ _ _)
  refine ⟨?_, by simp [Plan.phrase], .inr ?_⟩
  · intro group member c inside
    rw [List.mem_singleton.mp member, List.mem_singleton] at inside
    rw [inside, Holds.clause, Holds.leaf, same]
    exact ⟨found, listed, name ▸ visible, citable.some, name ▸ together⟩
  · exact List.mem_map.mpr ⟨type, chosen, ofType.symm⟩

/-- Of every card that is live, every text cut out of a weighted field between two runs,
with a term in it and without quotes, `&` and years, finds the card when it is asked
for in quotes, provided that lower case does not come between: the card is counted,
and it is on one of the pages if the ranking is shown to its end. -/
theorem quoted_text_finds_card (accepted : config.Accepted) (reachable : catalog.Reachable)
    (opened : catalog.collection = config.collection) {card : Card}
    (live : card ∈ catalog.store.cards)
    (selected : config.collection.select params.types = .ok selection) {type : DocumentType}
    (chosen : type ∈ selection) (ofType : card.type = type.name) {field : Text} {weight : Float32}
    (weighted : (field, weight) ∈ type.weightedFields) {before t after : Text}
    (stored : card.fields.get? field = some (before ++ t ++ after))
    (front : Analysis.Apart before t) (back : Analysis.Apart (before ++ t) after)
    (citable : Citable t) (verbatim : Analysis.Verbatim t)
    (asked : params.query = Query.Item.quoted t) :
    ∃ ranking hit, Pages config catalog params ranking ∧ (ranking.map (·.card.id)).Nodup ∧
      hit ∈ ranking ∧ hit.card = catalog.shown card ∧
      (ranking.length ≤ Ranking.depth → ∃ number, hit ∈ hitsOn config catalog params number) := by
  obtain ⟨given, reached⟩ := Catalog.reached_of_reachable reachable
  obtain ⟨v, keywords, same, made⟩ :=
    compile_citation citable verbatim (Selection.searchFields selection)
  rw [← asked] at made
  have visible : field ∈ catalog.columns := by
    rw [Catalog.columns, opened]
    exact Collection.mem_columns ((Collection.select_ok accepted.valid selected).2 type chosen)
      (DocumentType.mem_fieldNames weighted)
  have holds := holds_citation chosen ofType weighted visible stored front back citable verbatim same
  obtain ⟨ranking, ranks, cuts⟩ := Catalog.exists_ranking Upkeep.keepsOrder_idle reached made
    (selection.map (·.name)) (params.sort.bind (YearOrder.resolve selection))
  have known :
      catalog.unknownColumn (.phrase v (Selection.searchFields selection).weighted) = none := by
    rw [Catalog.unknownColumn_eq_none]
    intro name value member
    simp [Plan.phrase, Plan.leaves, Clause.leaves] at member
  have answered : Answered config catalog params selection _ _ :=
    ⟨selected, made, Catalog.retrieve_known known⟩
  have pages := pages_of_cuts accepted.room answered cuts
  have matching : catalog.shown card ∈ ranking.map (·.card) := by
    rw [ranks.each.mem_iff, Catalog.matching]
    rw [Catalog.cards_of_reached reached] at live
    exact List.mem_map_of_mem (List.mem_filter.mpr ⟨live, decide_eq_true holds⟩)
  obtain ⟨hit, inside, shown⟩ := List.mem_map.mp matching
  refine ⟨ranking, hit, pages, ranks.once, inside, shown, fun short => ?_⟩
  have turned : hit ∈ (List.range' 1 (Paging.pageCount ranking.length config.pageSize)).flatMap
      (hitsOn config catalog params) := by
    rw [pages.together, Nat.min_eq_left short, List.take_length]
    exact inside
  obtain ⟨number, _, there⟩ := List.mem_flatMap.mp turned
  exact ⟨number, there⟩

-- Two notes, one of them with a word that is too long to be a term.
def note (id : String) (text : Text) : Session.Step :=
  .add ⟨id.toList, ledger.name, none, Dict.empty.insert "naam".toList text⟩

def sealedText : Text := "jan ".toList ++ List.replicate 40 'x' ++ " smit".toList

def notes : Catalog :=
  Session.after (.create ⟨[ledger]⟩)
    [note "1" "Jan de Smid, bakker".toList, note "2" sealedText, .commit]

def quoting (t : Text) : SearchParams := ⟨Query.Item.quoted t, [], none, 1⟩

theorem notes_reachable : notes.Reachable := ledger_reachable _

theorem dashless_plain {t : Text} (dashless : '-' ∉ t) : ¬ Query.HasYears t :=
  fun years => dashless (Query.dash_of_years years)

/-- A word that is too long keeps its place in a card and loses it in a query, so a
text with such a word between others does not find the card that it was taken from. -/
theorem long_word_hides_card :
    notes.Reachable ∧ Citable sealedText ∧
      (∃ card ∈ notes.store.cards, card.fields.get? "naam".toList = some sealedText) ∧
      ∃ shown, run ledgerConfig notes (quoting sealedText) = .ok (.results shown) ∧
        shown.total = 0 := by
  have citable : Citable sealedText := {
    unquoted := Text.forall_of_all (by decide +kernel)
    single := Text.forall_of_all (by decide +kernel)
    yearless := dashless_plain (by decide +kernel)
    some := by decide +kernel }
  have known : notes.unknownColumn (.phrase sealedText (Selection.weightedFields [ledger])) = none := by
    decide +kernel
  have answered : Answered ledgerConfig notes (quoting sealedText) [ledger]
      ⟨.phrase sealedText (Selection.weightedFields [ledger]), _⟩ _ :=
    ⟨rfl, by rfl, Catalog.retrieve_known known⟩
  refine ⟨notes_reachable, citable, ⟨_, List.mem_of_getElem? (i := 1) rfl, by decide +kernel⟩, _,
    run_of_answered answered, ?_⟩
  have none : (Matching.found notes.store notes.columns
      (.phrase sealedText (Selection.weightedFields [ledger])) [ledger.name]).length = 0 := by
    decide +kernel
  exact (Ranking.rank_perm _ _).length_eq.trans none

/-- What was written between the first word and the comma of a note finds it. -/
theorem quoted_text_finds_note :
    ledgerConfig.Accepted ∧ notes.Reachable ∧
      ∃ ranking hit, Pages ledgerConfig notes (quoting "de Smid".toList) ranking ∧ hit ∈ ranking ∧
        hit.card.id = "1".toList := by
  have accepted : ledgerConfig.Accepted := ⟨⟨1, 5, [], [ledger]⟩, rfl⟩
  have citable : Citable "de Smid".toList := {
    unquoted := Text.forall_of_all (by decide +kernel)
    single := Text.forall_of_all (by decide +kernel)
    yearless := Query.short_plain (by decide)
    some := by decide +kernel }
  have verbatim : Analysis.Verbatim "de Smid".toList := {
    undotted := by decide
    sigma := by decide +kernel
    lengths := by decide +kernel
    gapless := ⟨[], ["de".toList, "Smid".toList], [], by decide +kernel, by simp, by decide +kernel⟩ }
  have live : ∃ card ∈ notes.store.cards, card.id = "1".toList ∧ card.type = ledger.name ∧
      card.fields.get? "naam".toList =
        some ("Jan ".toList ++ "de Smid".toList ++ ", bakker".toList) :=
    ⟨_, List.mem_of_getElem? (i := 0) rfl, rfl, rfl, by decide +kernel⟩
  obtain ⟨card, live, number, ofType, stored⟩ := live
  have front : Analysis.Apart "Jan ".toList "de Smid".toList := by
    intro c last d head
    cases last
    cases head
    decide +kernel
  have back : Analysis.Apart ("Jan ".toList ++ "de Smid".toList) ", bakker".toList := by
    intro c last d head
    cases last
    cases head
    decide +kernel
  have selected : ledgerConfig.collection.select (quoting "de Smid".toList).types = .ok [ledger] := rfl
  have weighted : ("naam".toList, 1) ∈ ledger.weightedFields := List.mem_singleton_self _
  obtain ⟨ranking, hit, pages, _, inside, shown, _⟩ :=
    quoted_text_finds_card accepted notes_reachable rfl live selected (List.mem_singleton_self ledger)
      ofType weighted stored front back citable verbatim rfl
  exact ⟨accepted, notes_reachable, ranking, hit, pages, inside, by rw [shown]; exact number⟩

end Search

end CardCatalog
