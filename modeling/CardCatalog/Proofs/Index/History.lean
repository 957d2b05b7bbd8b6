import CardCatalog.Proofs.Index.Reachable
import CardCatalog.Proofs.Index.Upkeep

/-!
How an index came to its state. The history is the list of the cards committed to
it, in the order in which they were added; what was pending when it was closed is
no part of it. The live cards and their order are read off the history alone, however
the search library keeps its segments, as long as it keeps the order of the cards.
-/

namespace CardCatalog

namespace Catalog

/-- The states of an index, each with the cards that were committed on the way. -/
inductive ReachedUnder (upkeep : Upkeep) : List Card → Catalog → Prop where
  | create {types : List DocumentType} {collection : Collection}
      (valid : Collection.ofTypes types = .ok collection) :
      ReachedUnder upkeep [] (create collection)
  | add {given : List Card} {catalog after : Catalog} {entry : Entry} :
      ReachedUnder upkeep given catalog → catalog.add entry = .ok after →
        ReachedUnder upkeep given after
  | commit {given : List Card} {catalog : Catalog} : ReachedUnder upkeep given catalog →
      ReachedUnder upkeep (given ++ catalog.pending) catalog.commit
  | reopen {given : List Card} {catalog opened : Catalog} {types : List DocumentType}
      {collection : Collection} (valid : Collection.ofTypes types = .ok collection) :
      ReachedUnder upkeep given catalog → open? collection catalog.store = some opened →
        ReachedUnder upkeep given opened
  | keep {given : List Card} {catalog : Catalog} {store : Store} :
      ReachedUnder upkeep given catalog → upkeep catalog.store store →
        ReachedUnder upkeep given { catalog with store }

/-- The states to which the steps alone lead. -/
abbrev Reached := ReachedUnder Upkeep.idle

variable {given : List Card} {catalog : Catalog}

theorem reachable_of_reached (reached : Reached given catalog) : catalog.Reachable := by
  induction reached with
  | create valid => exact .create valid
  | add _ added ih => exact .add ih added
  | commit _ ih => exact .commit ih
  | reopen valid _ opens ih => exact .reopen valid ih opens
  | keep _ moved => exact moved.elim

theorem reached_of_reachable (reachable : catalog.Reachable) : ∃ given, Reached given catalog := by
  induction reachable with
  | create valid => exact ⟨[], .create valid⟩
  | add _ added ih =>
    obtain ⟨given, reached⟩ := ih
    exact ⟨given, .add reached added⟩
  | commit _ ih =>
    obtain ⟨given, reached⟩ := ih
    exact ⟨_, .commit reached⟩
  | reopen valid _ opens ih =>
    obtain ⟨given, reached⟩ := ih
    exact ⟨given, .reopen valid reached opens⟩

theorem store_of_open {collection : Collection} {store : Store}
    (opens : open? collection store = some catalog) : catalog.store = store := by
  obtain ⟨_, rfl⟩ := open?_eq_some.mp opens
  rfl

section Upkeep

variable {upkeep : Upkeep} (keeps : upkeep.KeepsOrder) (reached : ReachedUnder upkeep given catalog)
include keeps reached

theorem regular_of_reachedUnder : catalog.Regular := by
  induction reached with
  | create _ => exact regular_create _
  | add _ added ih => exact regular_add ih added
  | commit _ ih => exact regular_commit ih
  | reopen _ _ opens ih => exact regular_open ih opens
  | keep _ moved ih =>
    -- the ids are those of the live cards, which the upkeep leaves as they were
    have columns := keeps.columns moved
    have cards := keeps.cards moved
    exact ⟨fun name member => columns ▸ ih.columns name member,
      keeps.segments moved ih.segments, cards ▸ ih.unique⟩

/-- Of every id the card that was added last is live, at the place of that add. -/
theorem cards_of_reachedUnder : catalog.store.cards = Latest.cards given := by
  induction reached with
  | create _ => rfl
  | add _ added ih =>
    obtain ⟨card, _, rfl⟩ := add_ok added
    exact ih
  | commit _ ih => exact Store.cards_commit_latest ih _
  | reopen _ _ opens ih =>
    rw [store_of_open opens]
    exact ih
  | keep _ moved ih => exact (keeps.cards moved).trans ih

end Upkeep

theorem cards_of_reached (reached : Reached given catalog) :
    catalog.store.cards = Latest.cards given :=
  cards_of_reachedUnder Upkeep.keepsOrder_idle reached

/-- A library that does nothing has been like any other so far. -/
theorem ReachedUnder.of_reached {upkeep : Upkeep} (reached : Reached given catalog) :
    ReachedUnder upkeep given catalog := by
  induction reached with
  | create valid => exact .create valid
  | add _ added ih => exact .add ih added
  | commit _ ih => exact .commit ih
  | reopen valid _ opens ih => exact .reopen valid ih opens
  | keep _ moved => exact moved.elim

end Catalog

end CardCatalog
