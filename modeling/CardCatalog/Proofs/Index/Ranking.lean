import CardCatalog.Index.Retrieval

/-!
What a ranking by year does to the cards that were found. It is a stable sort by
the year of each card, where a card without a year is placed at the outermost year
of the direction, so the cards of one year keep their order both ways.
-/

namespace CardCatalog

namespace YearOrder

/-- In this order the second year does not come before the first. -/
def Follows : YearOrder → Int → Int → Prop
  | ascending, first, second => first ≤ second
  | descending, first, second => second ≤ first

/-- The year at which cards without a year are placed. -/
def outermost : YearOrder → Int
  | ascending => Word.highestSigned
  | descending => Word.lowestSigned

def placed (order : YearOrder) (card : Card) : Int := card.year.getD order.outermost

/-- Cards ordered by year, beside the same cards as they were added. Only a year
that reaches the outermost one can stand behind a card without a year. The cards of
one year are as they were added, and so are those with the outermost year or none. -/
structure Arranges (order : YearOrder) (added ranked : List Card) : Prop where
  dated : ranked.Pairwise fun a b => ∀ y ∈ a.year, ∀ z ∈ b.year, order.Follows y z
  undated : ranked.Pairwise fun a b =>
    a.year = none → ∀ z ∈ b.year, order.Follows order.outermost z
  tied : ∀ year : Option Int, ranked.filter (·.year = year) = added.filter (·.year = year)
  last : ranked.filter (order.placed · = order.outermost) =
    added.filter (order.placed · = order.outermost)

theorem follows_trans {order : YearOrder} {a b c : Int} (first : order.Follows a b)
    (second : order.Follows b c) : order.Follows a c := by
  cases order
  · exact Int.le_trans first second
  · exact Int.le_trans second first

theorem follows_total (order : YearOrder) (a b : Int) : order.Follows a b ∨ order.Follows b a := by
  cases order
  · exact Int.le_total a b
  · exact Int.le_total b a

theorem follows_refl (order : YearOrder) (a : Int) : order.Follows a a := by
  cases order <;> exact Int.le_refl a

theorem placed_dated (order : YearOrder) {card : Card} {y : Int} (dated : y ∈ card.year) :
    order.placed card = y := by
  rw [placed, Option.mem_def.mp dated, Option.getD_some]

end YearOrder

namespace Ranking

section Stable

variable {α : Type} {le : α → α → Bool}
  (trans : ∀ a b c, le a b = true → le b c = true → le a c = true)
  (total : ∀ a b, (le a b || le b a) = true)
include trans total

theorem filter_mergeSort (l : List α) {p : α → Bool}
    (tied : ∀ a b, p a = true → p b = true → le a b = true) :
    (l.mergeSort le).filter p = l.filter p := by
  have even : (l.filter p).Pairwise fun a b => le a b = true := by
    refine List.pairwise_filter.mpr (List.pairwise_of_forall fun a b => ?_)
    exact fun first second => tied a b first second
  have kept : (l.filter p).Sublist (l.mergeSort le) :=
    List.sublist_mergeSort trans total even List.filter_sublist
  have within : (l.filter p).Sublist ((l.mergeSort le).filter p) := by
    simpa using kept.filter p
  have same := ((List.mergeSort_perm l le).filter p).length_eq
  exact (within.eq_of_length same.symm).symm

end Stable

variable {order : YearOrder}

theorem rank_by_year (order : YearOrder) :
    ∃ le : Matching.Found → Matching.Found → Bool,
      (∀ found, rank (some order) found = found.mergeSort le) ∧
        (∀ a b, le a b = true ↔ order.Follows (order.placed a.card) (order.placed b.card)) ∧
        (∀ a b c, le a b = true → le b c = true → le a c = true) ∧
        ∀ a b, (le a b || le b a) = true := by
  have laws : ∀ le : Matching.Found → Matching.Found → Bool,
      (∀ a b, le a b = true ↔ order.Follows (order.placed a.card) (order.placed b.card)) →
        (∀ a b c, le a b = true → le b c = true → le a c = true) ∧
          ∀ a b, (le a b || le b a) = true := by
    intro le compares
    constructor
    · intro a b c
      rw [compares, compares, compares]
      exact YearOrder.follows_trans
    · intro a b
      rw [Bool.or_eq_true, compares, compares]
      exact order.follows_total _ _
  cases order with
  | ascending =>
    have compares : ∀ a b, earlier a b = true ↔ YearOrder.ascending.Follows
        (YearOrder.ascending.placed a.card) (YearOrder.ascending.placed b.card) :=
      fun _ _ => decide_eq_true_iff
    exact ⟨earlier, fun _ => rfl, compares, laws earlier compares⟩
  | descending =>
    have compares : ∀ a b, later a b = true ↔ YearOrder.descending.Follows
        (YearOrder.descending.placed a.card) (YearOrder.descending.placed b.card) :=
      fun _ _ => decide_eq_true_iff
    exact ⟨later, fun _ => rfl, compares, laws later compares⟩

theorem filter_rank (found : List Matching.Found) {p : Card → Bool} {year : Int}
    (here : ∀ card, p card = true → order.placed card = year) :
    ((rank (some order) found).map (·.card)).filter p = (found.map (·.card)).filter p := by
  obtain ⟨le, ranked, compares, trans, total⟩ := rank_by_year order
  have tied : ∀ a b : Matching.Found, p a.card = true → p b.card = true → le a b = true := by
    intro a b first second
    rw [compares, here _ first, here _ second]
    exact order.follows_refl year
  rw [List.filter_map, List.filter_map, ranked]
  exact congrArg _ (filter_mergeSort trans total found tied)

theorem rank_pairwise (found : List Matching.Found) :
    ((rank (some order) found).map (·.card)).Pairwise fun a b =>
      order.Follows (order.placed a) (order.placed b) := by
  obtain ⟨le, ranked, compares, trans, total⟩ := rank_by_year order
  rw [ranked, List.pairwise_map]
  exact (List.pairwise_mergeSort trans total found).imp fun {a b} before => (compares a b).mp before

/-- A ranking by year arranges what was found. -/
theorem arranges_rank (order : YearOrder) (found : List Matching.Found) :
    order.Arranges (found.map (·.card)) ((rank (some order) found).map (·.card)) where
  dated := (rank_pairwise found).imp fun {a b} before y first z second => by
    rwa [order.placed_dated first, order.placed_dated second] at before
  undated := (rank_pairwise found).imp fun {a b} before none z second => by
    rwa [YearOrder.placed, none, Option.getD_none, order.placed_dated second] at before
  tied := fun year => by
    apply @filter_rank order found _ (year.getD order.outermost)
    intro card same
    rw [YearOrder.placed, of_decide_eq_true same]
  last := filter_rank found fun card same => of_decide_eq_true same

end Ranking

theorem YearOrder.Arranges.shown {order : YearOrder} {added ranked : List Card}
    (arranges : order.Arranges added ranked) (catalog : Catalog) :
    order.Arranges (added.map catalog.shown) (ranked.map catalog.shown) where
  dated := List.pairwise_map.mpr arranges.dated
  undated := List.pairwise_map.mpr arranges.undated
  tied := fun year => by
    have same := congrArg (List.map catalog.shown) (arranges.tied year)
    rw [List.filter_map, List.filter_map]
    exact same
  last := by
    have same := congrArg (List.map catalog.shown) arranges.last
    rw [List.filter_map, List.filter_map]
    exact same

end CardCatalog
