import CardCatalog.Dict
import CardCatalog.Index.Analysis

/-!
The inverted form of one column: for every term that occurs in it, the cards that have
the term and the positions where they have it. Cards are counted from zero within their
segment. The number of terms in every card is kept beside it for the ranking. All of it
is the search library's.
-/

namespace CardCatalog

structure Posting where
  card : Nat
  positions : List Nat
  deriving DecidableEq

structure Inverted where
  postings : Dict (List Posting)
  lengths : List Nat

namespace Inverted

def positions (term : Text) (slots : List (Option Text)) : List Nat :=
  (slots.zipIdx.filter (·.1 == some term)).map (·.2)

def posting? (term : Text) (card : List (Option Text) × Nat) : Option Posting :=
  match positions term card.1 with
  | [] => none
  | found => some ⟨card.2, found⟩

def postingsOf (cards : List (List (Option Text))) (term : Text) : List Posting :=
  cards.zipIdx.filterMap (posting? term)

def dictionary (cards : List (List (Option Text))) : Dict (List Posting) where
  entries := (WordSet.ofList (cards.flatten.filterMap id)).words.map fun term =>
    (term, postingsOf cards term)
  ascending := List.pairwise_map.mpr (WordSet.ofList _).ascending

def ofTexts (texts : List (Option Text)) : Inverted :=
  let cards := texts.map fun text => (text.map Analysis.slots).getD []
  { postings := dictionary cards
    lengths := cards.map fun slots => (slots.filterMap id).length }

variable (column : Inverted)

def find (term : Text) : List Posting := (column.postings.get? term).getD []

def positionsIn (term : Text) (card : Nat) : List Nat :=
  (((column.find term).find? (·.card == card)).map (·.positions)).getD []

def lengthOf (card : Nat) : Nat := (column.lengths[card]?).getD 0

end Inverted

end CardCatalog
