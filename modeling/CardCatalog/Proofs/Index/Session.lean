import CardCatalog.Index.Spelling
import CardCatalog.Proofs.Collection.Valid
import CardCatalog.Proofs.Index.Reachable
import Mathlib.Data.List.Induction

/-!
A session with one index, step by step. Its callers think of a map from ids to
the cards last given with them, as it was at the last commit; the store behind
it keeps segments, marks and pending cards. The two agree after every session.
-/

namespace CardCatalog

namespace Session

inductive Step where
  | add (entry : Entry)
  | commit
  | get (id : Text)
  | counts
  | search (request : Request)
  | spellings (words fields : List Text) (size : Nat)

inductive Answer where
  | added
  | rejected (fault : EntryFault)
  | committed
  | card (found : Option Card)
  | counts (counts : CardCounts)
  | hits (found : Except RequestFault Hits)
  | spellings (pairs : List (Text × Text))

def answer (catalog : Catalog) : Step → Answer
  | .add entry =>
    match catalog.add entry with
    | .ok _ => .added
    | .error fault => .rejected fault
  | .commit => .committed
  | .get id => .card (catalog.get? id)
  | .counts => .counts catalog.counts
  | .search request => .hits (catalog.retrieve request)
  | .spellings words fields size => .spellings (catalog.spellings words fields size)

def next (catalog : Catalog) : Step → Catalog
  | .add entry =>
    match catalog.add entry with
    | .ok after => after
    | .error _ => catalog
  | .commit => catalog.commit
  | _ => catalog

def after (catalog : Catalog) (steps : List Step) : Catalog := steps.foldl next catalog

def answers (catalog : Catalog) : List Step → List Answer
  | [] => []
  | step :: rest => answer catalog step :: answers (next catalog step) rest

/-! What the callers keep in mind -/

def isCommit : Step → Bool
  | .commit => true
  | _ => false

def settled (steps : List Step) : List Step := (steps.reverse.dropWhile (!isCommit ·)).reverse

def Accepted (collection : Collection) (entry : Entry) : Prop :=
  (∃ type ∈ collection.types, type.name = entry.type) ∧ Text.trim entry.id ≠ []

instance (collection : Collection) (entry : Entry) : Decidable (Accepted collection entry) :=
  inferInstanceAs (Decidable (_ ∧ _))

def added? (collection : Collection) : Step → Option Entry
  | .add entry => if Accepted collection entry then some entry else none
  | _ => none

def adds (collection : Collection) (steps : List Step) : List Entry :=
  steps.filterMap (added? collection)

def stored (entry : Entry) (type : DocumentType) : Card :=
  ⟨entry.id, type.name, entry.storedYear type, entry.storedFields type⟩

/-! How the two stay together -/

theorem next_added {catalog after : Catalog} {entry : Entry}
    (added : catalog.add entry = .ok after) : next catalog (.add entry) = after := by
  simp [next, added]

theorem next_rejected {catalog : Catalog} {entry : Entry} {fault : EntryFault}
    (rejected : catalog.add entry = .error fault) : next catalog (.add entry) = catalog := by
  simp [next, rejected]

theorem card?_ok {collection : Collection} {entry : Entry} {card : Card}
    (made : entry.card? collection = .ok card) :
    ∃ type ∈ collection.types, type.name = entry.type ∧ card = stored entry type := by
  unfold Entry.card? at made
  split at made
  · cases made
  · rename_i type found
    split at made
    · cases made
    · cases made
      obtain ⟨member, same⟩ := Collection.mem_of_get? found
      exact ⟨type, member, same, rfl⟩

theorem accepted_iff {collection : Collection} {entry : Entry} :
    Accepted collection entry ↔ ∃ card, entry.card? collection = .ok card := by
  unfold Entry.card? Accepted
  split
  · rename_i missing
    have none := Collection.get?_eq_none.mp missing
    constructor
    · rintro ⟨⟨type, member, same⟩, _⟩
      exact absurd same (none type member)
    · rintro ⟨_, same⟩
      cases same
  · rename_i type found
    have configured := Collection.mem_of_get? found
    split
    · rename_i blank
      simp_all
    · rename_i named
      exact ⟨fun _ => ⟨_, rfl⟩, fun _ => ⟨⟨type, configured⟩, by simpa using named⟩⟩

def cardsOf (collection : Collection) (given : List Entry) : List Card :=
  given.filterMap fun entry => (entry.card? collection).toOption

/-- What an index holds after some steps: of the cards added up to the last commit
the latest ones, and of those added since then all. -/
structure Mirrors (collection : Collection) (steps : List Step) (catalog : Catalog) : Prop where
  same : catalog.collection = collection
  cards : catalog.store.cards =
    Latest.cards (cardsOf collection (adds collection (settled steps)))
  pending : cardsOf collection (adds collection steps) =
    cardsOf collection (adds collection (settled steps)) ++ catalog.pending

theorem settled_concat (steps : List Step) (step : Step) :
    settled (steps ++ [step]) = if isCommit step then steps ++ [step] else settled steps := by
  cases commits : isCommit step <;> simp [settled, commits]

theorem adds_concat (collection : Collection) (steps : List Step) (step : Step) :
    adds collection (steps ++ [step]) =
      adds collection steps ++ (added? collection step).toList := by
  cases added : added? collection step <;> simp [adds, added]

theorem cardsOf_append (collection : Collection) (early later : List Entry) :
    cardsOf collection (early ++ later) = cardsOf collection early ++ cardsOf collection later :=
  List.filterMap_append

theorem mirrors_create (collection : Collection) :
    Mirrors collection [] (.create collection) := ⟨rfl, rfl, rfl⟩

theorem mirrors_add {collection : Collection} {steps : List Step} {catalog : Catalog}
    (mirrors : Mirrors collection steps catalog) (entry : Entry) :
    Mirrors collection (steps ++ [.add entry]) (next catalog (.add entry)) := by
  have kept : settled (steps ++ [.add entry]) = settled steps := settled_concat steps (.add entry)
  have accepted := @accepted_iff collection entry
  cases made : entry.card? collection with
  | ok card =>
    have yes : Accepted collection entry := accepted.mpr ⟨card, made⟩
    have new : cardsOf collection [entry] = [card] := by simp [cardsOf, made, Except.toOption]
    rw [next_added (Catalog.add_card (mirrors.same ▸ made))]
    refine ⟨mirrors.same, kept ▸ mirrors.cards, ?_⟩
    rw [adds_concat, kept, cardsOf_append, mirrors.pending, List.append_assoc]
    simp [added?, yes, new]
  | error fault =>
    have no : ¬ Accepted collection entry := by
      rw [accepted]
      simp [made]
    rw [next_rejected (Catalog.add_fault (mirrors.same ▸ made))]
    refine ⟨mirrors.same, kept ▸ mirrors.cards, ?_⟩
    rw [adds_concat, kept]
    simpa [added?, no] using mirrors.pending

theorem mirrors_commit {collection : Collection} {steps : List Step} {catalog : Catalog}
    (mirrors : Mirrors collection steps catalog) :
    Mirrors collection (steps ++ [.commit]) (next catalog .commit) := by
  have now : settled (steps ++ [.commit]) = steps ++ [.commit] := settled_concat steps .commit
  have same : adds collection (steps ++ [.commit]) = adds collection steps := by
    rw [adds_concat]
    exact List.append_nil _
  refine ⟨mirrors.same, ?_, ?_⟩
  · rw [now, same, mirrors.pending]
    exact Store.cards_commit_latest mirrors.cards catalog.pending
  · rw [now]
    exact (List.append_nil _).symm

theorem mirrors_next {collection : Collection} {steps : List Step} {catalog : Catalog}
    (mirrors : Mirrors collection steps catalog) (step : Step) :
    Mirrors collection (steps ++ [step]) (next catalog step) := by
  have reads : isCommit step = false → added? collection step = none → next catalog step = catalog →
      Mirrors collection (steps ++ [step]) (next catalog step) := by
    intro commits adding stays
    have kept : settled (steps ++ [step]) = settled steps := by
      rw [settled_concat, commits]
      rfl
    have same : adds collection (steps ++ [step]) = adds collection steps := by
      rw [adds_concat, adding]
      exact List.append_nil _
    rw [stays]
    exact ⟨mirrors.same, kept ▸ mirrors.cards, same ▸ kept ▸ mirrors.pending⟩
  cases step with
  | add entry => exact mirrors_add mirrors entry
  | commit => exact mirrors_commit mirrors
  | get id => exact reads rfl rfl rfl
  | counts => exact reads rfl rfl rfl
  | search request => exact reads rfl rfl rfl
  | spellings words fields size => exact reads rfl rfl rfl

theorem after_concat (catalog : Catalog) (steps : List Step) (step : Step) :
    after catalog (steps ++ [step]) = next (after catalog steps) step :=
  List.foldl_append

theorem mirrors_after (collection : Collection) (steps : List Step) :
    Mirrors collection steps (after (.create collection) steps) := by
  induction steps using List.reverseRecOn with
  | nil => exact mirrors_create collection
  | append_singleton steps step ih =>
    rw [after_concat]
    exact mirrors_next ih step

theorem reachable_next {catalog : Catalog} (reachable : catalog.Reachable) (step : Step) :
    (next catalog step).Reachable := by
  cases step with
  | add entry =>
    cases added : catalog.add entry with
    | ok after =>
      rw [next_added added]
      exact .add reachable added
    | error fault =>
      rw [next_rejected added]
      exact reachable
  | commit => exact .commit reachable
  | get id => exact reachable
  | counts => exact reachable
  | search request => exact reachable
  | spellings words fields size => exact reachable

theorem reachable_after {catalog : Catalog} (reachable : catalog.Reachable) (steps : List Step) :
    (after catalog steps).Reachable := by
  induction steps generalizing catalog with
  | nil => exact reachable
  | cons step rest ih => exact ih (reachable_next reachable step)

end Session

end CardCatalog
