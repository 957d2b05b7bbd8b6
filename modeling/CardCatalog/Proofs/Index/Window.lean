import CardCatalog.Proofs.Index.History
import CardCatalog.Proofs.Index.Ranking
import CardCatalog.Proofs.Index.Search

/-!
One ranking for all requests that differ only in offset and limit. It holds every
card that matches, once, and every such request cuts its window out of the first
ten thousand of it; the total is the length of the whole.
-/

namespace CardCatalog

/-- What an offset and a limit leave of a ranking. -/
def Ranking.window {α : Type} (ranking : List α) (offset limit : Nat) : List α :=
  ((ranking.take depth).drop offset).take limit

theorem Ranking.map_window {α β : Type} (f : α → β) (ranking : List α) (offset limit : Nat) :
    (window ranking offset limit).map f = window (ranking.map f) offset limit := by
  simp [window, List.map_take, List.map_drop]

-- Where the early exit shows nothing, the window is empty as well.
theorem Ranking.window_eq {α : Type} (ranking : List α) (offset limit : Nat) :
    window ranking offset limit =
      if depth ≤ offset ∨ limit = 0 then []
      else (ranking.drop offset).take (min limit (depth - offset)) := by
  rw [window, List.drop_take, List.take_take]
  split
  · rename_i nothing
    have none : min limit (depth - offset) = 0 := by omega
    rw [none, List.take_zero]
  · rfl

namespace Catalog

/-- The live cards of a history for which a plan holds, in the order in which they
were added, as the index shows them. -/
def matching (catalog : Catalog) (given : List Card) (plan : Plan) (types : List Text) :
    List Card :=
  ((Latest.cards given).filter fun card =>
    decide (Holds.plan catalog.columns card plan types)).map catalog.shown

/-- A ranking of all cards that match, each of them once. -/
structure Ranks (catalog : Catalog) (given : List Card) (plan : Plan) (types : List Text)
    (order : Option YearOrder) (ranking : List Hit) : Prop where
  each : (ranking.map (·.card)).Perm (catalog.matching given plan types)
  once : (ranking.map (·.card.id)).Nodup
  years : ∀ direction ∈ order,
    direction.Arranges (catalog.matching given plan types) (ranking.map (·.card))

/-- All requests for a plan cut their windows out of this ranking, unless they are
refused. -/
def Cuts (catalog : Catalog) (plan : Plan) (types : List Text) (order : Option YearOrder)
    (ranking : List Hit) : Prop :=
  ∀ offset limit, catalog.retrieve ⟨plan, types, order, offset, limit⟩ =
    match catalog.unknownColumn plan with
    | some name => .error (.unknownColumn name)
    | none => .ok ⟨ranking.length, Ranking.window ranking offset limit⟩

theorem matching_ids_nodup (catalog : Catalog) (given : List Card) (plan : Plan)
    (types : List Text) : ((catalog.matching given plan types).map (·.id)).Nodup := by
  rw [matching, List.map_map]
  exact (Latest.cards_ids_nodup given).sublist (List.filter_sublist.map _)

theorem cards_hits (catalog : Catalog) (plan : Plan) (order : Option YearOrder)
    (found : List Matching.Found) :
    (found.map (catalog.hit plan order)).map (·.card) =
      (found.map (·.card)).map catalog.shown := by
  rw [List.map_map, List.map_map]
  rfl

theorem ranks_rank {catalog : Catalog} {given : List Card} {plan : Plan} {types : List Text}
    {found : List Matching.Found}
    (all : (found.map (·.card)).map catalog.shown = catalog.matching given plan types)
    (order : Option YearOrder) :
    catalog.Ranks given plan types order
      ((Ranking.rank order found).map (catalog.hit plan order)) := by
  have cards := catalog.cards_hits plan order (Ranking.rank order found)
  have each : (((Ranking.rank order found).map (catalog.hit plan order)).map (·.card)).Perm
      (catalog.matching given plan types) := by
    rw [cards, ← all]
    exact ((Ranking.rank_perm order found).map _).map _
  refine ⟨each, ?_, ?_⟩
  · have ids := each.map (·.id)
    rw [List.map_map] at ids
    exact ids.nodup_iff.mpr (matching_ids_nodup catalog given plan types)
  · rintro direction rfl
    rw [cards, ← all]
    exact (Ranking.arranges_rank direction found).shown catalog

theorem retrieve_unknown {catalog : Catalog} {request : Request} {name : Text}
    (missing : catalog.unknownColumn request.plan = some name) :
    catalog.retrieve request = .error (.unknownColumn name) := by
  rw [retrieve, missing]

theorem retrieve_known {catalog : Catalog} {request : Request}
    (known : catalog.unknownColumn request.plan = none) :
    catalog.retrieve request =
      .ok ⟨(catalog.ranked request.plan request.types request.order).length,
        Ranking.window ((catalog.ranked request.plan request.types request.order).map
          (catalog.hit request.plan request.order)) request.offset request.limit⟩ := by
  rw [retrieve, known, ← Ranking.map_window, Ranking.window_eq]

/-- There is one ranking behind all requests for a compiled plan, whatever their
offsets and limits are. -/
theorem exists_ranking {upkeep : Upkeep} (keeps : upkeep.KeepsOrder) {given : List Card}
    {catalog : Catalog} (reached : ReachedUnder upkeep given catalog) {fields : SearchFields}
    {q : Text} {compiled : Compiled} (made : Query.compile fields q = some compiled)
    (types : List Text) (order : Option YearOrder) :
    ∃ ranking, catalog.Ranks given compiled.plan types order ranking ∧
      catalog.Cuts compiled.plan types order ranking := by
  have regular := regular_of_reachedUnder keeps reached
  have full := Query.full_of_compile made types
  cases missing : catalog.unknownColumn compiled.plan with
  | some name =>
    -- nothing is shown of it, so any arrangement of the matching cards will do
    let found := ((Latest.cards given).filter fun card =>
      decide (Holds.plan catalog.columns card compiled.plan types)).map (Matching.Found.mk · 0)
    have cards : (found.map (·.card)).map catalog.shown =
        catalog.matching given compiled.plan types := by
      rw [matching, List.map_map]
      exact List.map_map
    refine ⟨_, ranks_rank cards order, fun offset limit => ?_⟩
    rw [missing]
    exact retrieve_unknown missing
  | none =>
    have known := (catalog.unknownColumn_eq_none compiled.plan).mp missing
    have cards : ((Matching.found catalog.store catalog.columns compiled.plan types).map
        (·.card)).map catalog.shown = catalog.matching given compiled.plan types := by
      rw [Matching.cards_found catalog.store types
        (fun s inside name column => regular.segments s inside ▸ regular.columns name column) known,
        matching, cards_of_reachedUnder keeps reached]
      simp [full]
    refine ⟨_, ranks_rank cards order, fun offset limit => ?_⟩
    rw [missing, retrieve_known missing, List.length_map]
    rfl

end Catalog

end CardCatalog
