import CardCatalog.Proofs.Query.Respacing
import CardCatalog.Proofs.Search.Narrowing
import CardCatalog.Proofs.Search.Pages

/-!
A year range put into a query filters its cards and does nothing else. The range is cut
out and the rest is collapsed, so what remains is the query without the range but for its
blanks, and these are of no account.
-/

namespace CardCatalog

namespace Query

def dated (a first last b : Text) : Text :=
  a ++ ' ' :: (first ++ '-' :: last ++ ' ' :: b)

section Extract

variable {a b first last : Text}

theorem extract_dated (yearless : ¬ HasYears (a ++ b)) (four : FourDigits first)
    (other : FourDigits last)
    (apart : ∀ c ∈ a.getLast?, ∀ d ∈ b.head?, Text.isBlank c = true ∨ Text.isBlank d = true) :
    YearRange.extract (dated a first last b) =
      (some ⟨Text.number first, Text.number last⟩, Text.collapse (a ++ b)) := by
  have plain {t : Text} (within : t <:+: a ++ b) : ¬ HasYears t := fun ⟨x, y, fx, fy, inside⟩ =>
    yearless ⟨x, y, fx, fy, inside.trans within⟩
  -- the years stand between blanks, so that each part is scanned by itself
  let parts : List (Text × List (Piece YearRange)) :=
    [(a, a.map .loose),
      (first ++ '-' :: last, [.token ⟨Text.number first, Text.number last⟩ (first ++ '-' :: last)]),
      (b, b.map .loose)]
  have each : ∀ x ∈ parts, Scan.Emits YearRange.find x.1 x.2 := by
    intro x member
    simp only [parts, List.mem_cons, List.not_mem_nil, or_false] at member
    rcases member with rfl | rfl | rfl
    · exact emits_plain (plain (List.prefix_append a b).isInfix)
    · exact emits_years four other
    · exact emits_plain (plain (List.suffix_append a b).isInfix)
  have skips : ∀ c ∈ [' '], ∀ before r, YearRange.find before (c :: r) = none := by
    intro c member before r
    rw [List.mem_singleton.mp member]
    exact find_skips (by decide) before r
  have written : Text.joined [' '] (parts.map Prod.fst) = dated a first last b := by
    simp [parts, dated, Text.joined]
  have pieces := Scan.pieces_of_emits (Scan.emits_joined skips each)
  have loose (t : Text) : Scan.values (t.map (@Piece.loose YearRange)) = [] := Scan.values_loose t
  have found : Scan.values (Scan.pieces YearRange.find (dated a first last b)) =
      [⟨Text.number first, Text.number last⟩] := by
    rw [← written, pieces, Scan.values_spaced]
    simp only [parts, List.flatMap_cons, List.flatMap_nil, loose]
    rfl
  have words : Text.words (YearRange.blanked (Scan.pieces YearRange.find (dated a first last b))) =
      Text.words (a ++ b) := by
    have kept (t : Text) : (t.map .loose).flatMap (fun p => YearRange.blanked [p]) = t := by
      simp [YearRange.blanked, List.flatMap_map]
    have mid (range : YearRange) (raw : Text) :
        [Piece.token range raw].flatMap (fun p => YearRange.blanked [p]) = [' '] := rfl
    rw [← written, pieces, blanked_eq, Scan.flatMap_spaced (fun c => rfl)]
    simp only [parts, List.map_cons, List.map_nil, kept, mid, Text.words_joined_texts,
      List.flatMap_cons, List.flatMap_nil, List.append_nil]
    exact (Text.parted_append apart).symm
  rw [YearRange.extract, found]
  exact congrArg (fun ws => (_, Text.joined [' '] ws)) words

end Extract

section Collapsed

variable {fields : SearchFields} (names : ∀ n ∈ fields.scopable, Scope.Blankless n) (t : Text)
include names

theorem asks_collapse :
    (∃ s ∈ segments (Text.collapse t), (sense fields.scopable s).Asks) ↔
      ∃ s ∈ segments t, (sense fields.scopable s).Asks := by
  have collapsed (ts : List Text) : (∃ s ∈ ts, (sense fields.scopable s).Asks) ↔
      ∃ s ∈ ts.map fun s => (sense fields.scopable s).collapsed, s.Asks := by
    simp [Sense.asks_collapsed]
  rw [collapsed, senses_collapse names, ← collapsed]

theorem fits_collapse {columns : List Text} {card : Card} :
    (∀ s ∈ segments (Text.collapse t),
        (sense fields.scopable s).Fits columns card fields.weighted) ↔
      ∀ s ∈ segments t, (sense fields.scopable s).Fits columns card fields.weighted := by
  have collapsed (ts : List Text) :
      (∀ s ∈ ts, (sense fields.scopable s).Fits columns card fields.weighted) ↔
        ∀ s ∈ ts.map fun s => (sense fields.scopable s).collapsed,
          s.Fits columns card fields.weighted := by
    simp [Sense.fits_collapsed]
  rw [collapsed, senses_collapse names, ← collapsed]

end Collapsed

end Query

namespace Catalog

variable {catalog : Catalog} {asked : List Text} {selection : List DocumentType}
  {a b first last : Text}

theorem blankless_of_selected (blankless : ∀ type ∈ catalog.collection.types,
      ∀ name ∈ type.fieldNames, Scope.Blankless name)
    (selected : catalog.collection.select asked = .ok selection) :
    ∀ name ∈ (Selection.searchFields selection).scopable, Scope.Blankless name := by
  intro name listed
  obtain ⟨type, chosen, field⟩ := Selection.type_of_searchFields (List.mem_append_left _ listed)
  exact blankless type (Collection.mem_of_select selected type chosen) name field

/-- A query with a year range put in compiles if the query without it does. It has the same
keywords, and finds those of the same cards that have a year in the range. -/
theorem answer_dated (reachable : catalog.Reachable)
    (blankless : ∀ type ∈ catalog.collection.types, ∀ name ∈ type.fieldNames,
      Scope.Blankless name)
    (selected : catalog.collection.select asked = .ok selection) (order : Option YearOrder)
    (apart : ∀ c ∈ a.getLast?, ∀ d ∈ b.head?, Text.isBlank c = true ∨ Text.isBlank d = true)
    (yearless : ¬ Query.HasYears (a ++ b)) (four : Query.FourDigits first)
    (other : Query.FourDigits last) :
    ((∃ compiled, Query.compile (Selection.searchFields selection)
        (Query.dated a first last b) = some compiled) ↔
      ∃ compiled, Query.compile (Selection.searchFields selection) (a ++ b) = some compiled) ∧
    ∀ whole cut, Query.compile (Selection.searchFields selection) (a ++ b) = some whole →
      Query.compile (Selection.searchFields selection) (Query.dated a first last b) = some cut →
      cut.keywords = whole.keywords ∧ whole.plan.years = none ∧
      cut.plan.years = some ⟨Text.number first, Text.number last⟩ ∧
      ∃ all some, catalog.answer? selection order (a ++ b) = Option.some all ∧
        catalog.answer? selection order (Query.dated a first last b) = Option.some some ∧
        some.Perm (all.filter fun card =>
          decide (∃ year ∈ card.year, Text.number first ≤ year ∧ year ≤ Text.number last)) := by
  have names := blankless_of_selected blankless selected
  have plain : YearRange.extract (a ++ b) = (none, a ++ b) := Query.extract_plain yearless
  have taken := Query.extract_dated yearless four other apart
  refine ⟨?_, fun whole cut made madeCut => ⟨?_, ?_, ?_, ?_⟩⟩
  · rw [Query.compiles_iff plain, Query.compiles_iff taken, Query.asks_collapse names]
  · rw [Query.keywords_of_compile made, Query.keywords_of_compile madeCut, plain, taken,
      Query.keywords_collapse names]
  · exact Query.years_of_compile plain made
  · exact Query.years_of_compile taken madeCut
  · obtain ⟨all, answered, amongAll⟩ := answer_of_compile reachable selected order made
    obtain ⟨some, answeredCut, amongSome⟩ := answer_of_compile reachable selected order madeCut
    refine ⟨all, some, answered, answeredCut, amongSome.trans ?_⟩
    refine List.Perm.trans ?_ (amongAll.symm.filter _)
    rw [holding, holding, List.filter_filter]
    refine .of_eq (List.filter_congr fun card _ => ?_)
    rw [← Bool.decide_and, decide_eq_decide, Query.plan_iff plain made,
      Query.plan_iff taken madeCut, Query.fits_collapse names]
    -- the range is the one more thing that the plan asks of a card
    constructor
    · rintro ⟨fits, years, typed⟩
      exact ⟨years _ rfl, fits, by simp, typed⟩
    · rintro ⟨dated, fits, _, typed⟩
      refine ⟨fits, fun range same => ?_, typed⟩
      cases same
      exact dated

-- Three accounts of one name, of which the years of the query leave the first.
def datedAccounts : Catalog :=
  Session.after (.create ⟨[Search.ledger]⟩)
    [Search.account "1" (some 1600), Search.account "2" (some 1700), Search.account "3" none,
      .commit]

/-- The range stands inside the quotes. -/
theorem answer_dated_accounts :
    datedAccounts.Reachable ∧ datedAccounts.collection.select [] = .ok [Search.ledger] ∧
      ∃ all some, datedAccounts.answer? [Search.ledger] none "\"jan \"".toList = Option.some all ∧
        datedAccounts.answer? [Search.ledger] none "\"jan  1550-1650 \"".toList =
          Option.some some ∧
        all.length = 3 ∧ some.map (·.id) = ["1".toList] := by
  have reachable : datedAccounts.Reachable := Search.ledger_reachable _
  have selected : datedAccounts.collection.select [] = .ok [Search.ledger] := rfl
  have blankless : ∀ type ∈ datedAccounts.collection.types, ∀ name ∈ type.fieldNames,
      Scope.Blankless name := by
    intro type member name field
    rw [List.mem_singleton.mp member] at field
    rw [List.mem_singleton.mp field]
    exact Text.forall_of_all (by decide +kernel)
  have four {t : Text} (length : t.length = 4)
      (digits : (t.all fun c => decide (Text.isDigit c = true)) = true) : Query.FourDigits t :=
    ⟨length, Text.forall_of_all digits⟩
  have made : Query.compile (Selection.searchFields [Search.ledger])
      ("\"jan ".toList ++ "\"".toList) =
        some ⟨⟨[[.one (.phrase "jan".toList (Selection.weightedFields [Search.ledger]))]], none⟩,
          .ofList ["jan".toList]⟩ := by rfl
  obtain ⟨compiles, dated⟩ := answer_dated (a := "\"jan ".toList) (b := "\"".toList) reachable
    blankless selected none (fun c last d _ => .inl (by cases last; decide +kernel))
    (Query.short_plain (by decide)) (four (t := "1550".toList) rfl (by decide))
    (four (t := "1650".toList) rfl (by decide))
  obtain ⟨cut, madeCut⟩ := compiles.mpr ⟨_, made⟩
  obtain ⟨_, _, _, all, some, answered, answeredCut, among⟩ := dated _ cut made madeCut
  obtain ⟨cards, same, holding⟩ := answer_of_compile reachable selected none made
  cases answered.symm.trans same
  refine ⟨reachable, selected, all, some, answered, answeredCut, ?_, ?_⟩
  · exact holding.length_eq.trans (by decide +kernel)
  · have ids := (among.trans (holding.filter _)).map (·.id)
    exact List.perm_singleton.mp (ids.trans (.of_eq (by decide +kernel)))

end Catalog

end CardCatalog
