import CardCatalog.Proofs.Index.Latest

/-!
What the search library may do to a store by itself, between two steps of a session. It
decides how the cards are spread over segments and when it puts some of these together;
`commit` has the simplest such library, which leaves the segments as the commits made them.
`KeepsOrder` is what has to be assumed where the order of the cards is seen.
-/

namespace CardCatalog

/-- A live card keeps its place among the others when the two segments become one. -/
def Segment.merge (first second : Segment) : Segment :=
  ofHeld first.columns ((first.held ++ second.held).filter (·.live))

/-- Which stores a store may turn into. -/
abbrev Upkeep := Store → Store → Prop

namespace Upkeep

def idle : Upkeep := fun _ _ => False

/-- Two segments that stand next to each other are put together. -/
inductive Merging : Upkeep
  | neighbours {columns : List Text} {front back : List Segment} {first second : Segment} :
      Merging ⟨columns, front ++ first :: second :: back⟩
        ⟨columns, front ++ first.merge second :: back⟩

/-- However the segments are kept, the live cards stand in the order in which they were
added, and no segment has other columns than its store. -/
structure KeepsOrder (upkeep : Upkeep) : Prop where
  columns : ∀ {before after}, upkeep before after → after.columns = before.columns
  segments : ∀ {before after}, upkeep before after →
    (∀ s ∈ before.segments, s.columns = before.columns) →
      ∀ s ∈ after.segments, s.columns = after.columns
  cards : ∀ {before after}, upkeep before after → after.cards = before.cards

theorem keepsOrder_idle : KeepsOrder idle := ⟨nofun, nofun, nofun⟩

theorem shown_merge (first second : Segment) :
    Held.shown (first.merge second).held = Held.shown first.held ++ Held.shown second.held := by
  simp [Segment.merge, Segment.ofHeld, Held.shown, List.filter_filter]

theorem keepsOrder_merging : KeepsOrder Merging where
  columns := fun ⟨⟩ => rfl
  segments := by
    rintro _ _ (@⟨columns, front, back, first, second⟩) regular s member
    rcases List.mem_append.mp member with before | rest
    · exact regular s (List.mem_append_left _ before)
    · rcases List.mem_cons.mp rest with rfl | behind
      · exact regular first (by simp)
      · exact regular s (by simp [behind])
  cards := by
    rintro _ _ ⟨⟩
    simp [Store.cards_eq_shown, shown_merge]

end Upkeep

end CardCatalog
