import CardCatalog.Index.Catalog
import Mathlib.Algebra.GroupWithZero.Nat
import Mathlib.Data.List.Dedup

/-!
What a store shows after any number of commits: of the cards that it was given,
those that no later one of the same id replaced, in the order in which they were
added. Segments, marks and the segments that went are not visible in it.
-/

namespace CardCatalog

namespace Latest

def replaced (later : List Card) (card : Card) : Bool := later.any (·.id == card.id)

/-- A card stays unless a later one has its id. -/
def cards : List Card → List Card
  | [] => []
  | card :: rest => if replaced rest card then cards rest else card :: cards rest

def last? (given : List Card) (id : Text) : Option Card := given.reverse.find? (·.id == id)

theorem replaced_iff (later : List Card) (card : Card) :
    replaced later card = true ↔ ∃ other ∈ later, other.id = card.id := by
  simp [replaced]

theorem replaced_append (early later : List Card) (card : Card) :
    replaced (early ++ later) card = (replaced early card || replaced later card) := by
  simp [replaced]

theorem mem_cards {given : List Card} {card : Card} (member : card ∈ cards given) :
    card ∈ given := by
  induction given with
  | nil => exact member
  | cons first rest ih =>
    rw [cards] at member
    split at member
    · exact List.mem_cons_of_mem first (ih member)
    · rcases List.mem_cons.mp member with same | later
      · simp [same]
      · exact List.mem_cons_of_mem first (ih later)

theorem cards_of_nodup {given : List Card} (unique : (given.map (·.id)).Nodup) :
    cards given = given := by
  induction given with
  | nil => rfl
  | cons card rest ih =>
    obtain ⟨fresh, others⟩ := List.nodup_cons.mp unique
    have stays : replaced rest card = false := by
      rw [Bool.eq_false_iff, ne_eq, replaced_iff]
      rintro ⟨other, member, same⟩
      exact fresh (List.mem_map.mpr ⟨other, member, same⟩)
    rw [cards, stays, ih others]
    rfl

-- Adding to what was given takes cards away at any place, but puts new ones only at the end.
theorem cards_append (early later : List Card) :
    cards (early ++ later) = (cards early).filter (!replaced later ·) ++ cards later := by
  induction early with
  | nil => rfl
  | cons card rest ih =>
    rw [List.cons_append, cards, cards, replaced_append, ih]
    by_cases soon : replaced rest card = true
    · simp [soon]
    · by_cases late : replaced later card = true <;> simp [soon, late]

def put (held : List Card) (card : Card) : List Card := held.filter (·.id != card.id) ++ [card]

theorem foldl_put (held given : List Card) :
    given.foldl put held = held.filter (!replaced given ·) ++ cards given := by
  induction given generalizing held with
  | nil => simp [replaced, cards]
  | cons card rest ih =>
    have stays : (held.filter fun other => !replaced rest other && other.id != card.id) =
        held.filter (!replaced (card :: rest) ·) := by
      refine List.filter_congr fun other _ => ?_
      by_cases same : other.id = card.id
      · simp [replaced, same]
      · simp [replaced, bne_iff_ne.mpr same, beq_false_of_ne (Ne.symm same)]
    rw [List.foldl_cons, ih, put, List.filter_append, List.filter_filter, cards, stays]
    by_cases again : replaced rest card = true <;> simp [again]

theorem ids_cards (given : List Card) :
    (cards given).map (·.id) = (given.map (·.id)).dedup := by
  induction given with
  | nil => rfl
  | cons card rest ih =>
    rw [cards, List.map_cons, List.dedup_cons, ← ih]
    have again : replaced rest card = true ↔ card.id ∈ rest.map (·.id) := by
      rw [replaced_iff, List.mem_map]
    by_cases hit : replaced rest card = true
    · rw [if_pos hit, if_pos (again.mp hit)]
    · rw [if_neg hit, if_neg (mt again.mpr hit)]
      rfl

theorem cards_ids_nodup (given : List Card) : ((cards given).map (·.id)).Nodup := by
  rw [ids_cards]
  exact List.nodup_dedup _

theorem last?_cons (card : Card) (rest : List Card) (id : Text) :
    last? (card :: rest) id =
      if replaced rest card then last? rest id
      else if card.id = id then some card else last? rest id := by
  have split : last? (card :: rest) id =
      (last? rest id).or (if card.id = id then some card else none) := by
    by_cases hit : card.id = id <;> simp [last?, List.find?_append, hit]
  rw [split]
  by_cases hit : card.id = id
  · cases found : last? rest id with
    | some other =>
      have member := List.mem_of_find?_eq_some found
      have same : other.id = card.id := by
        simpa [hit] using List.find?_some found
      have again := (replaced_iff rest card).mpr ⟨other, List.mem_reverse.mp member, same⟩
      simp [again]
    | none =>
      have fresh : replaced rest card ≠ true := by
        intro again
        obtain ⟨other, member, same⟩ := (replaced_iff rest card).mp again
        have missing := List.find?_eq_none.mp found other (List.mem_reverse.mpr member)
        exact missing (by simp [same, hit])
      simp [fresh, hit]
  · simp [hit]

theorem find_cards (given : List Card) (id : Text) :
    (cards given).find? (·.id == id) = last? given id := by
  induction given with
  | nil => rfl
  | cons card rest ih =>
    rw [cards, last?_cons]
    split
    · exact ih
    · by_cases hit : card.id = id <;> simp [hit, ih]

theorem find_unique {kept : List Card} (unique : (kept.map (·.id)).Nodup) {card : Card}
    (member : card ∈ kept) : kept.find? (·.id == card.id) = some card := by
  induction kept with
  | nil => simp at member
  | cons first rest ih =>
    obtain ⟨fresh, tail⟩ := List.nodup_cons.mp unique
    rcases List.mem_cons.mp member with same | later
    · simp [same]
    · have differ : first.id ≠ card.id := fun same =>
        fresh (List.mem_map.mpr ⟨card, later, same.symm⟩)
      simp [differ, ih tail later]

theorem sum_by_type {names : List Text} (unique : names.Nodup) (cards : List Card) :
    (names.map fun name => (cards.filter (·.type == name)).length).sum =
      (cards.filter fun card => names.contains card.type).length := by
  induction names with
  | nil => simp
  | cons name rest ih =>
    obtain ⟨fresh, tail⟩ := List.nodup_cons.mp unique
    have here : (cards.filter fun card => (name :: rest).contains card.type).filter
        (·.type == name) = cards.filter (·.type == name) := by
      rw [List.filter_filter]
      refine List.filter_congr fun card _ => ?_
      by_cases hit : card.type = name <;> simp [hit]
    have others : (cards.filter fun card => (name :: rest).contains card.type).filter
        (!·.type == name) = cards.filter fun card => rest.contains card.type := by
      rw [List.filter_filter]
      refine List.filter_congr fun card _ => ?_
      by_cases hit : card.type = name <;> simp [hit, fresh]
    rw [List.map_cons, List.sum_cons, ih tail, ← here, ← others,
      ← List.length_eq_length_filter_add]

end Latest

namespace Held

def shown (held : List Held) : List Card := (held.filter (·.live)).map (·.card)

theorem shown_ofCards (added : List Card) : shown (ofCards added) = Latest.cards added := by
  induction added with
  | nil => rfl
  | cons card rest ih =>
    rw [ofCards, Latest.cards, ← ih]
    by_cases again : Latest.replaced rest card = true
    · simp [shown, again, show rest.any (·.id == card.id) = true from again]
    · simp [shown, again, show ¬ rest.any (·.id == card.id) = true from again]

theorem shown_retire (added : List Card) (held : List Held) :
    shown (held.map (retire (added.map (·.id)))) =
      (shown held).filter (!Latest.replaced added ·) := by
  induction held with
  | nil => rfl
  | cons h rest ih =>
    have marked : (added.map (·.id)).contains h.card.id = Latest.replaced added h.card := by
      rw [Bool.eq_iff_iff, Latest.replaced_iff]
      simp
    cases live : h.live <;> cases again : Latest.replaced added h.card <;>
      simp_all [shown, retire]

end Held

namespace Segment

theorem cards_liveCards (s : Segment) : s.liveCards.map (·.2) = Held.shown s.held := by
  suffices general : ∀ (held : List Held) (n : Nat),
      (((held.zipIdx n).filter (·.1.live)).map fun h => (h.2, h.1.card)).map (·.2) =
        Held.shown held by
    exact general s.held 0
  intro held
  induction held with
  | nil => intro n; rfl
  | cons h rest ih =>
    intro n
    have tail := ih (n + 1)
    cases live : h.live <;> simp_all [Held.shown]

theorem shown_dead {s : Segment} (dead : s.isLive = false) : Held.shown s.held = [] := by
  simp_all [Held.shown, isLive]

end Segment

namespace Store

theorem cards_eq_shown (s : Store) : s.cards = s.segments.flatMap (Held.shown ·.held) := by
  simp [cards, Segment.cards_liveCards]

-- Segments without a live card go, which no one can see.
theorem shown_filter_live (segments : List Segment) :
    (segments.filter (·.isLive)).flatMap (Held.shown ·.held) =
      segments.flatMap (Held.shown ·.held) := by
  induction segments with
  | nil => rfl
  | cons s rest ih =>
    cases live : s.isLive
    · simp [live, ih, Segment.shown_dead live]
    · simp [live, ih]

theorem shown_retire (added : List Card) (segments : List Segment) :
    (segments.map (Segment.retire (added.map (·.id)))).flatMap (Held.shown ·.held) =
      (segments.flatMap (Held.shown ·.held)).filter (!Latest.replaced added ·) := by
  induction segments with
  | nil => rfl
  | cons s rest ih =>
    rw [List.map_cons, List.flatMap_cons, List.flatMap_cons, List.filter_append, ih]
    exact congrArg (· ++ _) (Held.shown_retire added s.held)

theorem cards_commit (s : Store) (added : List Card) :
    (s.commit added).cards = s.cards.filter (!Latest.replaced added ·) ++ Latest.cards added := by
  rw [cards_eq_shown, cards_eq_shown, commit]
  split
  · rename_i none
    have empty : added = [] := by simpa using none
    rw [empty, Latest.cards, List.append_nil, List.filter_eq_self.mpr]
    intro card _
    rfl
  · simp only [List.flatMap_append, shown_filter_live, shown_retire, List.flatMap_cons,
      List.flatMap_nil, List.append_nil, Segment.ofCards, Segment.ofHeld, Held.shown_ofCards]

theorem cards_commit_put (s : Store) (added : List Card) :
    (s.commit added).cards = added.foldl Latest.put s.cards := by
  rw [cards_commit, Latest.foldl_put]

/-- One commit after another shows what one commit of everything would show. -/
theorem cards_commit_latest {s : Store} {given : List Card}
    (showsLatest : s.cards = Latest.cards given) (added : List Card) :
    (s.commit added).cards = Latest.cards (given ++ added) := by
  rw [cards_commit, showsLatest, Latest.cards_append]

theorem columns_commit (s : Store) (added : List Card) : (s.commit added).columns = s.columns := by
  unfold commit
  split <;> rfl

end Store

namespace Catalog

variable {left right : Catalog} (collection : left.collection = right.collection)
  (cards : left.store.cards = right.store.cards)
include collection cards

theorem get?_of_cards (id : Text) : left.get? id = right.get? id := by
  have shown : left.shown = right.shown := by
    funext card
    rw [shown, columns, collection, shown, columns]
  rw [get?, cards, shown, get?]

theorem counts_of_cards : left.counts = right.counts := by
  rw [counts, cards, collection, counts]

end Catalog

end CardCatalog
