import CardCatalog.Index.Card
import CardCatalog.Index.Inverted

/-!
Segments and the store. Every commit with cards makes one segment, which never changes
but for the marks on cards that a later card of the same id replaces. A card that is
marked no longer matches, but it stays in the segment, and in all the counts that
ranking and spelling use, until none of the segment's cards is live; then the segment
goes. All of it is the search library's. It is free to keep its segments in another
order and to put some of them together, which is not done here: they stay in the order
of the commits. Where that order is seen, it is a hypothesis about the library,
`Upkeep.KeepsOrder`.
-/

namespace CardCatalog

def invert (columns : List Text) (cards : List Card) : List (Text × Inverted) :=
  columns.map fun column => (column, Inverted.ofTexts (cards.map (·.fields.get? column)))

/-- A card of a segment; it is live until a later card of the same id replaces it. -/
structure Held where
  card : Card
  live : Bool

structure Segment where
  columns : List Text
  held : List Held
  inverted : List (Text × Inverted) := invert columns (held.map (·.card))
  inverted_eq : inverted = invert columns (held.map (·.card)) := by rfl

structure Store where
  columns : List Text
  segments : List Segment

namespace Held

def retire (ids : List Text) (h : Held) : Held :=
  { h with live := h.live && !ids.contains h.card.id }

def ofCards : List Card → List Held
  | [] => []
  | card :: rest => ⟨card, !rest.any (·.id == card.id)⟩ :: ofCards rest

theorem card_ofCards (cards : List Card) : (ofCards cards).map (·.card) = cards := by
  induction cards with
  | nil => rfl
  | cons card rest ih => simp [ofCards, ih]

end Held

namespace Segment

def ofHeld (columns : List Text) (held : List Held) : Segment := { columns, held }

def ofCards (columns : List Text) (cards : List Card) : Segment :=
  ofHeld columns (Held.ofCards cards)

/-- The cards stay where they are, so the postings still fit. -/
theorem inverted_retire (ids : List Text) (s : Segment) :
    s.inverted = invert s.columns ((s.held.map (Held.retire ids)).map (·.card)) := by
  rw [s.inverted_eq, List.map_map]
  rfl

def retire (ids : List Text) (s : Segment) : Segment :=
  { s with held := s.held.map (Held.retire ids), inverted_eq := inverted_retire ids s }

def isLive (s : Segment) : Bool := s.held.any (·.live)

def liveCards (s : Segment) : List (Nat × Card) :=
  (s.held.zipIdx.filter (·.1.live)).map fun h => (h.2, h.1.card)

def column (s : Segment) (name : Text) : Option Inverted :=
  (s.inverted.find? (·.1 == name)).map (·.2)

end Segment

namespace Store

def empty (columns : List Text) : Store := ⟨columns, []⟩

/-- In the order in which they were added. -/
def cards (s : Store) : List Card := s.segments.flatMap fun seg => seg.liveCards.map (·.2)

def commit (s : Store) (added : List Card) : Store :=
  if added.isEmpty then s
  else
    let kept := (s.segments.map (Segment.retire (added.map (·.id)))).filter (·.isLive)
    { s with segments := kept ++ [Segment.ofCards s.columns added] }

end Store

end CardCatalog
