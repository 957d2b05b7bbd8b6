import CardCatalog.Proofs.Index.Postings
import Mathlib.Data.List.Infix

/-!
What the scores say about a card is what the plan means for the text of the card:
there is a score exactly where the plan holds. The segment in which the card
lies, the cards beside it and how well the card fits make no difference to it.
-/

namespace CardCatalog

namespace Holds

variable (columns : List Text) (card : Card)

instance (column term : Text) : Decidable (has card column term) :=
  inferInstanceAs (Decidable (some term ∈ slots card column))

instance (column : Text) (terms : List Text) : Decidable (together card column terms) :=
  inferInstanceAs (Decidable (terms.map some <:+: slots card column))

instance leafDecidable : (l : Leaf) → Decidable (leaf columns card l)
  | .field name value =>
    inferInstanceAs (Decidable
      (Analysis.terms value ≠ [] ∧ ∀ term ∈ Analysis.terms value, has card name term))
  | .phrase text fields =>
    inferInstanceAs (Decidable
      (∃ field ∈ fields, field.name ∈ columns ∧ Analysis.terms text ≠ [] ∧
        together card field.name (Analysis.terms text)))
  | .fuzzy text fields =>
    inferInstanceAs (Decidable
      (∃ field ∈ fields, field.name ∈ columns ∧
        ∃ term ∈ Analysis.terms text, has card field.name term))

instance clauseDecidable : (c : Clause) → Decidable (clause columns card c)
  | .one l => inferInstanceAs (Decidable (leaf columns card l))
  | .all ls => inferInstanceAs (Decidable (∀ l ∈ ls, leaf columns card l))

instance (p : Plan) (types : List Text) : Decidable (plan columns card p types) :=
  inferInstanceAs (Decidable
    ((∀ group ∈ p.groups, ∀ c ∈ group, clause columns card c) ∧
      (∀ range ∈ p.years, ∃ year ∈ card.year, range.first ≤ year ∧ year ≤ range.last) ∧
      (types = [] ∨ card.type ∈ types)))

end Holds

namespace Plan

/-- The column that a leaf names by itself; the others take those that there are. -/
def Known (columns : List Text) (p : Plan) : Prop :=
  ∀ name value, Leaf.field name value ∈ p.leaves → name ∈ columns

/-- Every conjunction has a part. One without parts would hold of every card, but
finds none. -/
structure Full (p : Plan) (types : List Text) : Prop where
  asks : p.groups ≠ [] ∨ p.years ≠ none ∨ types ≠ []
  groups : ∀ group ∈ p.groups, group ≠ []
  clauses : ∀ group ∈ p.groups, ∀ clause ∈ group, clause.leaves ≠ []

instance (p : Plan) (types : List Text) : Decidable (p.Full types) :=
  decidable_of_iff
    ((p.groups ≠ [] ∨ p.years ≠ none ∨ types ≠ []) ∧ (∀ group ∈ p.groups, group ≠ []) ∧
      ∀ group ∈ p.groups, ∀ clause ∈ group, clause.leaves ≠ [])
    ⟨fun ⟨asks, groups, clauses⟩ => ⟨asks, groups, clauses⟩,
      fun ⟨asks, groups, clauses⟩ => ⟨asks, groups, clauses⟩⟩

end Plan

namespace Score

theorem all_map_isSome {α : Type} (f : α → Option Float32) (parts : List α) :
    (all (parts.map f)).isSome = true ↔ parts ≠ [] ∧ ∀ part ∈ parts, (f part).isSome = true := by
  rw [all_isSome]
  simp

theorem any_map_isSome {α : Type} (f : α → Option Float32) (parts : List α) :
    (any (parts.map f)).isSome = true ↔ ∃ part ∈ parts, (f part).isSome = true := by
  rw [any_isSome]
  simp

end Score

namespace Matching

section Place

variable (store : Store) {s : Segment} {n : Nat} {card : Card}
  (there : (s.held.map (·.card))[n]? = some card)
include there

theorem termScore_isSome {name : Text} (column : name ∈ s.columns) (term : Text)
    (weight : Float32) :
    (termScore store name term weight ⟨s, n⟩).isSome = true ↔ Holds.has card name term := by
  have inside := s.column_eq name
  rw [if_pos column] at inside
  have places := Segment.positionsIn_column there inside term
  have found : Inverted.positions term (Holds.slots card name) ≠ [] ↔
      Holds.has card name term := by
    simp [Inverted.positions_eq_nil, Holds.has]
  rw [← found]
  simp only [termScore, inside, places]
  split <;> simp_all

theorem mem_runsAt {name : Text} {inverted : Inverted} (column : s.column name = some inverted)
    {terms : List Text} (asked : terms ≠ []) (p : Nat) :
    p ∈ runsAt inverted n terms ↔ terms.map some <+: (Holds.slots card name).drop p := by
  have places := Segment.positionsIn_column there column
  generalize Holds.slots card name = slots at places
  have first : ∀ (term : Text) (p : Nat), p ∈ inverted.positionsIn term n ↔
      ∃ more, slots.drop p = some term :: more := by
    intro term p
    rw [places, Inverted.mem_positions, ← List.head?_drop, List.head?_eq_some_iff]
  induction terms generalizing p with
  | nil => exact absurd rfl asked
  | cons term rest ih =>
    cases rest with
    | nil =>
      rw [runsAt, first]
      exact ⟨fun ⟨more, same⟩ => ⟨more, same.symm⟩, fun ⟨more, same⟩ => ⟨more, same.symm⟩⟩
    | cons next others =>
      have tail : (runsAt inverted n (next :: others)).contains (p + 1) = true ↔
          (next :: others).map some <+: slots.drop (p + 1) := by
        rw [List.contains_iff_mem]
        exact ih (by simp) (p + 1)
      rw [runsAt, List.mem_filter, first, tail, List.map_cons, ← List.drop_drop]
      constructor
      · rintro ⟨⟨more, same⟩, ahead⟩
        rw [same] at ahead ⊢
        exact List.cons_prefix_cons.mpr ⟨rfl, ahead⟩
      · rintro ⟨more, same⟩
        rw [← same]
        exact ⟨⟨_, rfl⟩, List.prefix_append _ _⟩
      · simp

theorem phraseScore_isSome {name : Text} (column : name ∈ s.columns) (terms : List Text)
    (weight : Float32) :
    (phraseScore store name terms weight ⟨s, n⟩).isSome = true ↔
      terms ≠ [] ∧ Holds.together card name terms := by
  have inside := s.column_eq name
  rw [if_pos column] at inside
  match terms with
  | [] => simp [phraseScore]
  | [term] =>
    rw [phraseScore, termScore_isSome store there column]
    simp [Holds.has, Holds.together, List.singleton_infix_iff]
  | term :: next :: rest =>
    have run := fun p => mem_runsAt there inside (List.cons_ne_nil term (next :: rest)) p
    have found : runsAt (Inverted.ofTexts ((s.held.map (·.card)).map (·.fields.get? name))) n
        (term :: next :: rest) ≠ [] ↔ Holds.together card name (term :: next :: rest) := by
      rw [Holds.together, List.infix_iff_prefix_suffix]
      constructor
      · intro begins
        obtain ⟨p, member⟩ := List.exists_mem_of_ne_nil _ begins
        exact ⟨_, (run p).mp member, List.drop_suffix p _⟩
      · rintro ⟨behind, ahead, ends⟩
        rw [List.suffix_iff_eq_drop.mp ends] at ahead
        exact List.ne_nil_of_mem ((run _).mpr ahead)
    rw [← found]
    simp only [phraseScore, inside]
    split <;> simp_all

end Place

theorem filterScore_isSome (passed : Bool) : (filterScore passed).isSome = passed := by
  cases passed <;> rfl

theorem filters_ne_nil (plan : Plan) (types : List Text) (card : Card) :
    filters plan types card ≠ [] ↔ plan.years ≠ none ∨ types ≠ [] := by
  cases years : plan.years <;> cases types <;> simp [filters, years]

theorem filters_pass {plan : Plan} {types : List Text} {card : Card} :
    (∀ passed ∈ filters plan types card, passed = true) ↔
      (∀ range ∈ plan.years, ∃ year ∈ card.year, range.first ≤ year ∧ year ≤ range.last) ∧
        (types = [] ∨ card.type ∈ types) := by
  rw [filters, List.forall_mem_append]
  refine and_congr ?_ ?_
  · cases plan.years <;> cases card.year <;> simp [YearRange.holds]
  · cases types <;> simp

section Plan

variable (store : Store) {columns : List Text} {s : Segment} {n : Nat} {card : Card}
  (there : (s.held.map (·.card))[n]? = some card) (covered : ∀ name ∈ columns, name ∈ s.columns)
include there covered

theorem leafScore_isSome {l : Leaf} (known : ∀ name value, l = .field name value → name ∈ columns) :
    (leafScore store columns ⟨s, n⟩ l).isSome = true ↔ Holds.leaf columns card l := by
  cases l with
  | field name value =>
    have column := covered name (known name value rfl)
    simp only [leafScore, Holds.leaf, Score.all_map_isSome, termScore_isSome store there column]
  | phrase text fields =>
    rw [leafScore, Score.any_map_isSome, Holds.leaf]
    refine exists_congr fun field => ?_
    rw [searchable, List.mem_filter, List.contains_iff_mem, and_assoc]
    refine and_congr_right fun _ => and_congr_right fun column => ?_
    exact phraseScore_isSome store there (covered field.name column) _ _
  | fuzzy text fields =>
    rw [leafScore, Score.any_isSome, List.any_flatMap, List.any_eq_true, Holds.leaf]
    refine exists_congr fun field => ?_
    rw [searchable, List.mem_filter, List.contains_iff_mem, and_assoc]
    refine and_congr_right fun _ => and_congr_right fun column => ?_
    rw [List.any_map, List.any_eq_true]
    refine exists_congr fun term => and_congr_right fun _ => ?_
    exact termScore_isSome store there (covered field.name column) _ _

theorem clauseScore_isSome {c : Clause}
    (known : ∀ name value, Leaf.field name value ∈ c.leaves → name ∈ columns) :
    (clauseScore store columns ⟨s, n⟩ c).isSome = true ↔
      c.leaves ≠ [] ∧ Holds.clause columns card c := by
  cases c with
  | one l =>
    have meant : (leafScore store columns ⟨s, n⟩ l).isSome = true ↔ Holds.leaf columns card l :=
      leafScore_isSome store there covered
        fun name value same => known name value (by simp [Clause.leaves, same])
    simpa [clauseScore, Holds.clause, Clause.leaves] using meant
  | all ls =>
    rw [clauseScore, Score.all_map_isSome, Holds.clause, Clause.leaves]
    refine and_congr_right fun _ => forall_congr' fun l => imp_congr_right fun member => ?_
    exact leafScore_isSome store there covered
      fun name value same => known name value (same ▸ member)

theorem groupScore_isSome {group : Group}
    (known : ∀ name value, Leaf.field name value ∈ group.flatMap Clause.leaves → name ∈ columns) :
    (groupScore store columns ⟨s, n⟩ group).isSome = true ↔
      group ≠ [] ∧ ∀ c ∈ group, c.leaves ≠ [] ∧ Holds.clause columns card c := by
  rw [groupScore, Score.all_map_isSome]
  refine and_congr_right fun _ => forall_congr' fun c => imp_congr_right fun member => ?_
  exact clauseScore_isSome store there covered
    fun name value inside => known name value (List.mem_flatMap.mpr ⟨c, member, inside⟩)

theorem planScore_isSome {plan : Plan} (known : plan.Known columns) (types : List Text) :
    (planScore store columns plan types card ⟨s, n⟩).isSome = true ↔
      plan.Full types ∧ Holds.plan columns card plan types := by
  have group : ∀ group ∈ plan.groups, (groupScore store columns ⟨s, n⟩ group).isSome = true ↔
      group ≠ [] ∧ ∀ c ∈ group, c.leaves ≠ [] ∧ Holds.clause columns card c := by
    intro group member
    exact groupScore_isSome store there covered
      fun name value inside => known name value (List.mem_flatMap.mpr ⟨group, member, inside⟩)
  have parts : (planScore store columns plan types card ⟨s, n⟩).isSome = true ↔
      (plan.groups ≠ [] ∨ plan.years ≠ none ∨ types ≠ []) ∧
        (∀ g ∈ plan.groups, (groupScore store columns ⟨s, n⟩ g).isSome = true) ∧
        ∀ passed ∈ filters plan types card, passed = true := by
    rw [planScore, Score.all_isSome, Bool.and_eq_true, List.all_append, Bool.and_eq_true]
    refine and_congr ?_ (and_congr ?_ ?_)
    · rw [← filters_ne_nil plan types card]
      cases plan.groups <;> simp
    · simp
    · simp [filterScore_isSome]
  rw [parts, filters_pass]
  constructor
  · rintro ⟨asks, groups, passed⟩
    refine ⟨⟨asks, fun g inside => ?_, fun g inside c member => ?_⟩, fun g inside c member => ?_,
      passed⟩
    · exact ((group g inside).mp (groups g inside)).1
    · exact (((group g inside).mp (groups g inside)).2 c member).1
    · exact (((group g inside).mp (groups g inside)).2 c member).2
  · rintro ⟨full, clauses, passed⟩
    refine ⟨full.asks, fun g inside => (group g inside).mpr ?_, passed⟩
    exact ⟨full.groups g inside, fun c member =>
      ⟨full.clauses g inside c member, clauses g inside c member⟩⟩

end Plan

theorem cards_kept {places : List (Nat × Card)} {score : Nat × Card → Option Float32}
    {meets : Card → Bool} (meant : ∀ place ∈ places, (score place).isSome = meets place.2) :
    (places.filterMap fun place => (score place).map (Found.mk place.2)).map (·.card) =
      (places.map (·.2)).filter meets := by
  induction places with
  | nil => rfl
  | cons place rest ih =>
    have here := meant place (by simp)
    have tail := ih fun other member => meant other (List.mem_cons_of_mem place member)
    cases found : score place with
    | none =>
      rw [found] at here
      simpa [found, ← here] using tail
    | some value =>
      rw [found] at here
      simpa [found, ← here] using tail

/-- A search finds the live cards for which the plan holds, in the order in which
they were added. -/
theorem cards_found (store : Store) {columns : List Text} {plan : Plan} (types : List Text)
    (covered : ∀ s ∈ store.segments, ∀ name ∈ columns, name ∈ s.columns)
    (known : plan.Known columns) :
    (found store columns plan types).map (·.card) =
      store.cards.filter fun card =>
        decide (plan.Full types ∧ Holds.plan columns card plan types) := by
  rw [found, Store.cards, List.map_flatMap, List.filter_flatMap]
  refine List.flatMap_congr fun s inside => ?_
  have meant : ∀ place ∈ s.liveCards,
      (planScore store columns plan types place.2 ⟨s, place.1⟩).isSome =
        decide (plan.Full types ∧ Holds.plan columns place.2 plan types) := by
    intro place member
    have there : (s.held.map (·.card))[place.1]? = some place.2 := Segment.mem_liveCards member
    rw [Bool.eq_iff_iff, decide_eq_true_iff]
    exact planScore_isSome store there (covered s inside) known types
  exact cards_kept meant

end Matching

end CardCatalog
