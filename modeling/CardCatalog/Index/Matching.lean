import CardCatalog.Index.Catalog
import CardCatalog.Index.Relevance

/-!
Which cards a plan finds, and how well they fit. A clause is looked up in the postings
of one card at a time and answers a score, or nothing if the card does not match; a
conjunction needs all its parts and a disjunction adds up those that are there. Text
without any term finds nothing. `Holds` says the same of the text of the card itself.
What a plan is made of for the library is decided in `translate` and `clause_query`;
when such a part matches, and with what score, is decided by the library.
-/

namespace CardCatalog

namespace Score

def total (parts : List Float32) : Float32 := parts.foldl (· + ·) 0

/-- Added from the first one on, so that a sum of negative zeros stays negative. -/
def sum? : List Float32 → Option Float32
  | [] => none
  | first :: rest => some (rest.foldl (· + ·) first)

/-- Every part has to match; no part at all matches nothing. -/
def all (parts : List (Option Float32)) : Option Float32 := (parts.mapM id).bind sum?

/-- One part is enough. Where there is a choice of parts they are added to zero. -/
def any : List (Option Float32) → Option Float32
  | [part] => part
  | parts => if parts.any Option.isSome then some (total (parts.filterMap id)) else none

theorem mapM_isSome (parts : List (Option Float32)) :
    (parts.mapM id).isSome = parts.all Option.isSome := by
  induction parts with
  | nil => rfl
  | cons part rest ih =>
    cases part with
    | none => rfl
    | some score =>
      rw [List.all_cons, ← ih, List.mapM_cons]
      cases rest.mapM id <;> rfl

/-- Whether there is a score never depends on how high it is. -/
theorem all_isSome (parts : List (Option Float32)) :
    (all parts).isSome = (!parts.isEmpty && parts.all Option.isSome) := by
  rw [← mapM_isSome]
  cases parts with
  | nil => rfl
  | cons part rest =>
    cases part with
    | none => rfl
    | some score =>
      rw [all, List.mapM_cons]
      cases rest.mapM id <;> rfl

theorem any_isSome (parts : List (Option Float32)) : (any parts).isSome = parts.any Option.isSome := by
  unfold any
  split
  · simp
  · cases parts.any Option.isSome <;> rfl

end Score

namespace Matching

variable (store : Store) (columns : List Text)

structure Place where
  segment : Segment
  card : Nat

def termScore (column term : Text) (weight : Float32) (place : Place) : Option Float32 :=
  match place.segment.column column with
  | none => none
  | some inverted =>
    match inverted.positionsIn term place.card with
    | [] => none
    | found =>
      some (Relevance.score weight (store.rarity column term) (store.averageLength column)
        found.length (inverted.lengthOf place.card))

/-- The positions at which the terms begin to stand one behind the other. -/
def runsAt (inverted : Inverted) (card : Nat) : List Text → List Nat
  | [] => []
  | [term] => inverted.positionsIn term card
  | term :: rest =>
    let next := runsAt inverted card rest
    (inverted.positionsIn term card).filter fun p => next.contains (p + 1)

def phraseScore (column : Text) (terms : List Text) (weight : Float32) (place : Place) :
    Option Float32 :=
  match terms with
  | [] => none
  | [term] => termScore store column term weight place
  | terms =>
    match place.segment.column column with
    | none => none
    | some inverted =>
      match runsAt inverted place.card terms with
      | [] => none
      | found =>
        some (Relevance.score weight (Score.total (terms.map (store.rarity column)))
          (store.averageLength column) found.length (inverted.lengthOf place.card))

/-- Weighted fields that are no column are passed over. -/
def searchable (fields : List WeightedField) : List WeightedField :=
  fields.filter fun field => columns.contains field.name

def leafScore (place : Place) : Leaf → Option Float32
  | .field name value =>
    Score.all ((Analysis.terms value).map fun term => termScore store name term 1 place)
  | .phrase text fields =>
    Score.any ((searchable columns fields).map fun field =>
      phraseScore store field.name (Analysis.terms text) field.weight place)
  | .fuzzy text fields =>
    Score.any ((searchable columns fields).flatMap fun field =>
      (Analysis.terms text).map fun term => termScore store field.name term field.weight place)

def clauseScore (place : Place) : Clause → Option Float32
  | .one leaf => leafScore store columns place leaf
  | .all leaves => Score.all (leaves.map (leafScore store columns place))

def groupScore (place : Place) (group : Group) : Option Float32 :=
  Score.all (group.map (clauseScore store columns place))

def filters (plan : Plan) (types : List Text) (card : Card) : List Bool :=
  plan.years.toList.map (fun range => card.year.any range.holds) ++
    if types.isEmpty then [] else [types.contains card.type]

def filterScore (passed : Bool) : Option Float32 := if passed then some 0 else none

/-- A filter that lets the card through adds zero. -/
def planScore (plan : Plan) (types : List Text) (card : Card) (place : Place) : Option Float32 :=
  Score.all (plan.groups.map (groupScore store columns place) ++
    (filters plan types card).map filterScore)

structure Found where
  card : Card
  score : Float32

/-- In the order in which the cards were added. -/
def found (plan : Plan) (types : List Text) : List Found :=
  store.segments.flatMap fun segment =>
    segment.liveCards.filterMap fun (number, card) =>
      (planScore store columns plan types card ⟨segment, number⟩).map (⟨card, ·⟩)

end Matching

/-! What a plan means for a card -/

namespace Holds

def slots (card : Card) (column : Text) : List (Option Text) :=
  ((card.fields.get? column).map Analysis.slots).getD []

def has (card : Card) (column term : Text) : Prop := some term ∈ slots card column

def together (card : Card) (column : Text) (terms : List Text) : Prop :=
  terms.map some <:+: slots card column

variable (columns : List Text) (card : Card)

def leaf : Leaf → Prop
  | .field name value =>
    Analysis.terms value ≠ [] ∧ ∀ term ∈ Analysis.terms value, has card name term
  | .phrase text fields =>
    ∃ field ∈ fields, field.name ∈ columns ∧ Analysis.terms text ≠ [] ∧
      together card field.name (Analysis.terms text)
  | .fuzzy text fields =>
    ∃ field ∈ fields, field.name ∈ columns ∧
      ∃ term ∈ Analysis.terms text, has card field.name term

def clause : Clause → Prop
  | .one l => leaf columns card l
  | .all ls => ∀ l ∈ ls, leaf columns card l

def plan (p : Plan) (types : List Text) : Prop :=
  (∀ group ∈ p.groups, ∀ c ∈ group, clause columns card c) ∧
    (∀ range ∈ p.years, ∃ year ∈ card.year, range.first ≤ year ∧ year ≤ range.last) ∧
    (types = [] ∨ card.type ∈ types)

end Holds

end CardCatalog
