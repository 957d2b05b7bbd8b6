import CardCatalog.Index.Matching

/-!
The postings of a segment are a scan of its cards that was made in advance: a
look-up answers the places at which the text of the card has the term. Nothing
is said here about cards that are no longer live; their postings stay.
-/

namespace CardCatalog

namespace Inverted

def slotsOf (text : Option Text) : List (Option Text) := (text.map Analysis.slots).getD []

theorem mem_positions {term : Text} {slots : List (Option Text)} {p : Nat} :
    p ∈ positions term slots ↔ slots[p]? = some (some term) := by
  simp only [positions, List.mem_map, List.mem_filter, beq_iff_eq]
  constructor
  · rintro ⟨⟨slot, place⟩, ⟨member, rfl⟩, rfl⟩
    exact List.mem_zipIdx_iff_getElem?.mp member
  · intro there
    exact ⟨(some term, p), ⟨List.mem_zipIdx_iff_getElem?.mpr there, rfl⟩, rfl⟩

theorem positions_eq_nil {term : Text} {slots : List (Option Text)} :
    positions term slots = [] ↔ some term ∉ slots := by
  constructor
  · intro none member
    obtain ⟨p, there⟩ := List.mem_iff_getElem?.mp member
    have := mem_positions.mpr there
    simp [none] at this
  · intro absent
    refine List.eq_nil_iff_forall_not_mem.mpr fun p member => absent ?_
    exact List.mem_iff_getElem?.mpr ⟨p, mem_positions.mp member⟩

theorem postingsOf_absent {cards : List (List (Option Text))} {term : Text}
    (absent : ∀ card ∈ cards, some term ∉ card) : postingsOf cards term = [] := by
  refine List.filterMap_eq_nil_iff.mpr fun card member => ?_
  have inside : card.1 ∈ cards := List.fst_mem_of_mem_zipIdx member
  simp [posting?, positions_eq_nil.mpr (absent card.1 inside)]

theorem find_words (words : List Text) (f : Text → List Posting) (term : Text) :
    ((words.map fun word => (word, f word)).find? (·.1 == term)).map (·.2) =
      if term ∈ words then some (f term) else none := by
  induction words with
  | nil => simp
  | cons word rest ih =>
    rw [List.map_cons, List.find?_cons]
    by_cases hit : word = term
    · simp [hit]
    · simpa only [beq_false_of_ne hit, List.mem_cons, Ne.symm hit, false_or] using ih

-- A term without an entry occurs nowhere, so the scan would have found nothing either.
theorem find_ofTexts (texts : List (Option Text)) (term : Text) :
    (ofTexts texts).find term = postingsOf (texts.map slotsOf) term := by
  change ((dictionary (texts.map slotsOf)).get? term).getD [] = _
  rw [Dict.get?, dictionary, find_words]
  split
  · rfl
  · rename_i absent
    refine (postingsOf_absent fun card member inside => absent ?_).symm
    refine WordSet.mem_ofList.mpr (List.mem_filterMap.mpr ⟨some term, ?_, rfl⟩)
    exact List.mem_flatten.mpr ⟨card, member, inside⟩

theorem posting?_card {term : Text} {card : List (Option Text) × Nat} {posting : Posting}
    (made : posting? term card = some posting) : posting.card = card.2 := by
  unfold posting? at made
  split at made
  · cases made
  · cases made
    rfl

-- Postings stand in the order of the cards: further on none is for an earlier card.
theorem find_posting_later (cards : List (List (Option Text))) (term : Text) {n start : Nat}
    (before : n < start) :
    ((cards.zipIdx start).filterMap (posting? term)).find? (·.card == n) = none := by
  apply List.find?_eq_none.mpr
  intro posting member
  obtain ⟨card, inside, made⟩ := List.mem_filterMap.mp member
  have above := List.le_snd_of_mem_zipIdx inside
  have place := posting?_card made
  simp only [beq_iff_eq]
  omega

theorem find_posting (cards : List (List (Option Text))) (term : Text) (n start : Nat) :
    ((((cards.zipIdx start).filterMap (posting? term)).find? (·.card == start + n)).map
        (·.positions)).getD [] = positions term ((cards[n]?).getD []) := by
  induction cards generalizing n start with
  | nil => simp [positions]
  | cons card rest ih =>
    cases n with
    | zero =>
      have none := find_posting_later rest term (Nat.lt_succ_self start)
      cases found : positions term card with
      | nil =>
        have gone : posting? term (card, start) = Option.none := by simp [posting?, found]
        rw [List.zipIdx_cons, List.filterMap_cons_none gone, Nat.add_zero, none]
        simp [found]
      | cons p more => simp [posting?, found]
    | succ m =>
      have tail := ih m (start + 1)
      have place : start + (m + 1) = start + 1 + m := by omega
      rw [place]
      cases found : positions term card with
      | nil => simpa [posting?, found] using tail
      | cons p more =>
        have other : (start == start + 1 + m) = false := by
          simp
          omega
        simpa [posting?, found, other] using tail

theorem positionsIn_ofTexts (texts : List (Option Text)) (term : Text) (n : Nat) :
    (ofTexts texts).positionsIn term n =
      positions term (((texts.map slotsOf)[n]?).getD []) := by
  have found := find_posting (texts.map slotsOf) term n 0
  rw [Nat.zero_add] at found
  rw [positionsIn, find_ofTexts]
  exact found

end Inverted

namespace Segment

theorem column_eq (s : Segment) (name : Text) :
    s.column name =
      if name ∈ s.columns then
        some (Inverted.ofTexts ((s.held.map (·.card)).map (·.fields.get? name)))
      else none := by
  rw [column, s.inverted_eq]
  generalize s.columns = columns
  induction columns with
  | nil => rfl
  | cons first rest ih =>
    by_cases hit : first = name
    · simp [invert, hit]
    · simpa [invert, hit, Ne.symm hit] using ih

theorem mem_liveCards {s : Segment} {n : Nat} {card : Card} (member : (n, card) ∈ s.liveCards) :
    (s.held.map (·.card))[n]? = some card := by
  obtain ⟨⟨h, m⟩, kept, same⟩ := List.mem_map.mp member
  have inside := List.mem_zipIdx_iff_getElem?.mp (List.mem_filter.mp kept).1
  obtain ⟨rfl, rfl⟩ := Prod.mk.inj same
  simp [inside]

/-- In a column of its segment the postings of a card are the places in its own text. -/
theorem positionsIn_column {s : Segment} {n : Nat} {card : Card}
    (there : (s.held.map (·.card))[n]? = some card) {name : Text} {inverted : Inverted}
    (column : s.column name = some inverted) (term : Text) :
    inverted.positionsIn term n = Inverted.positions term (Holds.slots card name) := by
  rw [column_eq] at column
  split at column
  · cases column
    rw [Inverted.positionsIn_ofTexts, List.getElem?_map, List.getElem?_map, there]
    rfl
  · cases column

end Segment

end CardCatalog
