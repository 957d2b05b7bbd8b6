import CardCatalog.Proofs.Query.ItemPhrases
import CardCatalog.Proofs.Query.ItemScopes
import CardCatalog.Proofs.Query.Segments

/-!
The way from a query to its text and back. What is compiled from the written form
is what the items ask for: years, segments, scopes and free text are read one
after the other, and none of them takes anything from the next.
-/

namespace CardCatalog

namespace Query

variable {known : List Text} {items : List Item} {weighted : List WeightedField}

def freeItems (items : List Item) : List Item := scopeless (yearless items)

theorem mem_yearless {i : Item} : i ∈ yearless items ↔ i ∈ items ∧ i.years? = none := by
  simp [yearless]

theorem mem_freeItems {i : Item} :
    i ∈ freeItems items ↔ i ∈ items ∧ i.years? = none ∧ i.scope? = none := by
  simp [freeItems, scopeless, mem_yearless, and_assoc]

theorem scopes_yearless (items : List Item) :
    (yearless items).filterMap Item.scope? = items.filterMap Item.scope? := by
  rw [yearless, List.filterMap_filter]
  apply congrArg (List.filterMap · items)
  funext i
  cases i <;> rfl

theorem leaves_freeItems (items : List Item) :
    leavesOf weighted (freeItems items) = leavesOf weighted items := by
  have phrases : (freeItems items).filterMap Item.phrase? = items.filterMap Item.phrase? := by
    rw [freeItems, scopeless, yearless, List.filterMap_filter, List.filterMap_filter]
    apply congrArg (List.filterMap · items)
    funext i
    cases i <;> rfl
  have bare : (freeItems items).filterMap Item.word? = items.filterMap Item.word? := by
    rw [freeItems, scopeless, yearless, List.filterMap_filter, List.filterMap_filter]
    apply congrArg (List.filterMap · items)
    funext i
    cases i <;> rfl
  rw [leavesOf, phrases, bare, leavesOf]

section Segment

theorem colon_of_scope {i : Item} (member : i ∈ items) {scope : FieldScope}
    (kind : i.scope? = some scope) : ':' ∈ renderSegment items := by
  have colon : ':' ∈ i.render := by
    cases i with
    | scope name value => simp [Item.render]
    | _ => cases kind
  exact Text.mem_joined_of_mem (List.mem_map_of_mem member) colon

theorem parts_segment (names : ∀ n ∈ known, Nameable n)
    (formed : ∀ i ∈ items, i.WellFormed known) :
    parts ⟨known, weighted⟩ (renderSegment (yearless items)) =
      ⟨items.filterMap Item.scope?, renderSegment (freeItems items)⟩ := by
  rw [parts]
  by_cases colon : (renderSegment (yearless items)).contains ':' = true
  · rw [if_pos colon]
    obtain ⟨scopes, leftover⟩ := split_segment names (yearless_formed formed)
      fun i member => (mem_yearless.mp member).2
    rw [scopes_yearless] at scopes
    rw [← scopes, freeItems, ← leftover]
  · rw [if_neg colon]
    have unscoped : ∀ i ∈ yearless items, i.scope? = none := by
      intro i member
      cases kind : i.scope? with
      | none => rfl
      | some scope => exact absurd (by simpa using colon_of_scope member kind) colon
    have none : items.filterMap Item.scope? = [] := by
      rw [← scopes_yearless]
      exact List.filterMap_eq_nil_iff.mpr unscoped
    have all : freeItems items = yearless items := by
      apply List.filter_eq_self.mpr
      intro i member
      rw [unscoped i member]
      rfl
    rw [none, all]

theorem group_segment (names : ∀ n ∈ known, Nameable n)
    (formed : ∀ i ∈ items, i.WellFormed known) :
    group ⟨known, weighted⟩ (renderSegment (yearless items)) = groupOf weighted items := by
  have leaves := @leaves_segment known (freeItems items) weighted
    (fun i member => formed i (mem_freeItems.mp member).1)
    (fun i member => (mem_freeItems.mp member).2.1) (fun i member => (mem_freeItems.mp member).2.2)
  rw [leaves_freeItems] at leaves
  rw [group, parts_segment names formed]
  simp only [Phrase.compile, leaves]
  rfl

theorem keywords_render {i : Item} (formed : i.WellFormed known) (lasting : i.years? = none)
    (unscoped : i.scope? = none) : Text.keywords i.render = i.keywords := by
  cases formed with
  | scope _ _ _ _ _ => cases unscoped
  | phrase quotable _ => exact keywords_quoted quotable
  | number reference _ =>
    have numeral := (reference_numeral reference).2
    exact keywords_unquoted fun c member => (numeral_solid (numeral c member)).2.1
  | word bare _ => exact keywords_unquoted fun c member => (bare.clean c member).2.1
  | years _ _ => cases lasting

theorem keywords_scope {i : Item} (formed : i.WellFormed known) {scope : FieldScope}
    (kind : i.scope? = some scope) : Text.keywords scope.value = i.keywords := by
  cases formed with
  | scope _ _ quotable _ _ =>
    cases kind
    exact keywords_unquoted fun c member => (quotable.clean c member).1
  | _ => cases kind

theorem mem_keywords_segment (names : ∀ n ∈ known, Nameable n)
    (formed : ∀ i ∈ items, i.WellFormed known) {w : Text} :
    w ∈ keywords ⟨known, weighted⟩ (renderSegment (yearless items)) ↔
      w ∈ items.flatMap Item.keywords := by
  rw [keywords, parts_segment names formed, renderSegment, keywords_joined, List.mem_append,
    List.mem_flatMap, List.mem_flatMap, List.mem_flatMap]
  constructor
  · rintro (⟨scope, listed, inside⟩ | ⟨t, listed, inside⟩)
    · obtain ⟨i, member, kind⟩ := List.mem_filterMap.mp listed
      rw [keywords_scope (formed i member) kind] at inside
      exact ⟨i, member, inside⟩
    · obtain ⟨i, free, rfl⟩ := List.mem_map.mp listed
      obtain ⟨member, lasting, unscoped⟩ := mem_freeItems.mp free
      rw [keywords_render (formed i member) lasting unscoped] at inside
      exact ⟨i, member, inside⟩
  · rintro ⟨i, member, inside⟩
    cases kind : i.scope? with
    | some scope =>
      rw [← keywords_scope (formed i member) kind] at inside
      exact .inl ⟨scope, List.mem_filterMap.mpr ⟨i, member, kind⟩, inside⟩
    | none =>
      cases lasting : i.years? with
      | some range =>
        cases i with
        | years first last => cases inside
        | _ => cases lasting
      | none =>
        rw [← keywords_render (formed i member) lasting kind] at inside
        have free := mem_freeItems.mpr ⟨member, lasting, kind⟩
        exact .inr ⟨i.render, List.mem_map_of_mem free, inside⟩

end Segment

section Compile

theorem filter_groups {α β : Type} {f : α → List β} {g : List β → Group} (empty : g [] = [])
    (xs : List α) :
    (((xs.map f).filter (!·.isEmpty)).map g).filter (!·.isEmpty) =
      (xs.map fun x => g (f x)).filter (!·.isEmpty) := by
  induction xs with
  | nil => rfl
  | cons x rest ih =>
    rw [List.map_cons, List.map_cons, List.filter_cons, List.filter_cons, ← ih]
    cases text : f x with
    | nil => simp [empty]
    | cons c more => simp [List.filter_cons]

theorem years_render {q : List (List Item)}
    (formed : ∀ items ∈ q, ∀ i ∈ items, i.WellFormed known) :
    (YearRange.extract (render q)).1 = (yearsOf q).head? := by
  rw [YearRange.extract, values_render formed]
  cases yearsOf q with
  | nil => rfl
  | cons range rest => rfl

theorem groups_render (names : ∀ n ∈ known, Nameable n) {q : List (List Item)}
    (formed : ∀ items ∈ q, ∀ i ∈ items, i.WellFormed known) :
    ((segments (YearRange.extract (render q)).2).map (group ⟨known, weighted⟩)).filter
        (!·.isEmpty) =
      (q.map (groupOf weighted)).filter (!·.isEmpty) := by
  have each : (q.map fun items => group ⟨known, weighted⟩ (renderSegment (yearless items))) =
      q.map (groupOf weighted) :=
    List.map_congr_left fun items member => group_segment names (formed items member)
  rw [segments_rest names formed, filter_groups rfl, each]

theorem keywords_render_all (names : ∀ n ∈ known, Nameable n) {q : List (List Item)}
    (formed : ∀ items ∈ q, ∀ i ∈ items, i.WellFormed known) :
    WordSet.ofList ((segments (YearRange.extract (render q)).2).flatMap
        (keywords ⟨known, weighted⟩)) =
      .ofList (q.flatMap (·.flatMap Item.keywords)) := by
  apply WordSet.ext_words
  intro w
  rw [WordSet.mem_ofList, WordSet.mem_ofList, segments_rest names formed, List.mem_flatMap,
    List.mem_flatMap]
  constructor
  · rintro ⟨t, listed, inside⟩
    obtain ⟨items, member, rfl⟩ := List.mem_map.mp (List.mem_filter.mp listed).1
    exact ⟨items, member, (mem_keywords_segment names (formed items member)).mp inside⟩
  · rintro ⟨items, member, inside⟩
    have found :=
      (@mem_keywords_segment known items weighted names (formed items member) w).mpr inside
    have full : (!(renderSegment (yearless items)).isEmpty) = true := by
      cases text : renderSegment (yearless items) with
      | nil =>
        rw [text] at found
        cases found
      | cons c rest => rfl
    have listed : renderSegment (yearless items) ∈
        q.map fun items => renderSegment (yearless items) := List.mem_map.mpr ⟨items, member, rfl⟩
    exact ⟨renderSegment (yearless items), List.mem_filter.mpr ⟨listed, full⟩, found⟩

/-- Compiling what was written gives what was meant: the groups that ask for
something, the first years, and the words of every item. -/
theorem compile_render (weighted : List WeightedField) (names : ∀ n ∈ known, Nameable n)
    {q : List (List Item)} (formed : ∀ items ∈ q, ∀ i ∈ items, i.WellFormed known) :
    compile ⟨known, weighted⟩ (render q) =
      if ((q.map (groupOf weighted)).filter (!·.isEmpty)).isEmpty then none
      else some
        { plan := {
            groups := (q.map (groupOf weighted)).filter (!·.isEmpty)
            years := (yearsOf q).head? }
          keywords := .ofList (q.flatMap (·.flatMap Item.keywords)) } := by
  have shape : compile ⟨known, weighted⟩ (render q) =
      (Plan.ofGroups ((segments (YearRange.extract (render q)).2).map (group ⟨known, weighted⟩))
        (YearRange.extract (render q)).1).map fun plan =>
          ⟨plan, .ofList ((segments (YearRange.extract (render q)).2).flatMap
            (keywords ⟨known, weighted⟩))⟩ := rfl
  rw [shape, Plan.ofGroups, groups_render names formed, years_render formed,
    keywords_render_all names formed]
  cases (q.map (groupOf weighted)).filter (!·.isEmpty) with
  | nil => rfl
  | cons g rest => rfl

def deedQuery : List (List Item) :=
  [[.scope "naam".toList "jan de".toList, .word "bakker".toList,
      .years "1500".toList "1550".toList], [.number "12-345-6".toList]]

theorem compile_render_deed :
    (∀ n ∈ ["naam".toList], Nameable n) ∧
      (∀ items ∈ deedQuery, ∀ i ∈ items, i.WellFormed ["naam".toList]) ∧
      render deedQuery = "naam:\"jan de\" bakker 1500-1550 & 12-345-6".toList ∧
      compile ⟨["naam".toList], []⟩ "naam:\"jan de\" bakker 1500-1550 & 12-345-6".toList =
        some
          { plan := {
              groups := [[.one (.field "naam".toList "jan de".toList),
                .one (.fuzzy "bakker".toList [])], [.one (.phrase "12-345-6".toList [])]]
              years := some ⟨1500, 1550⟩ }
            keywords :=
              .ofList ["jan".toList, "de".toList, "bakker".toList, "12-345-6".toList] } := by
  have names : ∀ n ∈ ["naam".toList], Nameable n := by
    intro n listed
    rw [List.mem_singleton.mp listed]
    constructor
    · decide
    · exact Text.forall_of_all (by decide +kernel)
  have value : Quotable "jan de".toList := {
    spaced := ⟨by decide, by decide +kernel⟩
    clean := Text.forall_of_all (by decide) }
  have bare : Bare ["naam".toList] "bakker".toList := {
    filled := by decide
    clean := Text.forall_of_all (by decide +kernel)
    numberless := by
      intro a b _ _ within
      have dash : '-' ∈ "bakker".toList := within.subset (by simp)
      exact absurd dash (by decide)
    nameless := by decide }
  have digits {t : Text} (filled : t ≠ [])
      (all : (t.all fun c => decide (Text.isDigit c = true)) = true) : Digits t := ⟨filled, Text.forall_of_all all⟩
  have reference : Reference "12-345-6".toList :=
    .three (a := "12".toList) (b := "345".toList) (c := "6".toList)
      (digits (by decide) (by decide)) (digits (by decide) (by decide))
      (digits (by decide) (by decide))
  have formed : ∀ items ∈ deedQuery, ∀ i ∈ items, i.WellFormed ["naam".toList] := by
    simp only [deedQuery, List.forall_mem_cons]
    refine ⟨⟨?_, ?_, ?_, by simp⟩, ⟨?_, by simp⟩, by simp⟩
    · exact .scope (by simp) (by decide) value (short_plain (by decide)) (short_plain (by decide))
    · exact .word bare (short_plain (by decide))
    · exact .years ⟨rfl, Text.forall_of_all (by decide)⟩ ⟨rfl, Text.forall_of_all (by decide)⟩
    · exact .number reference (short_plain (by decide))
  have written : render deedQuery = "naam:\"jan de\" bakker 1500-1550 & 12-345-6".toList := by
    decide +kernel
  have compiled := compile_render [] names formed
  rw [written] at compiled
  exact ⟨names, formed, written, compiled.trans rfl⟩

end Compile

end Query

end CardCatalog
