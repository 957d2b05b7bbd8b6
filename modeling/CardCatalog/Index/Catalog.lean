import CardCatalog.Index.Segment

/-!
An open index: a store, the collection it is read with, and the cards added since the
last commit, which nobody sees yet. The collection decides which columns are visible; it
may leave out columns of the store but has no others. This is the program's index with
`open_or_create`, `add_document`, `commit`, `get`, `doc_counts` and
`fields_from_schema`. The calls of the search library in them are taken to succeed: that
a writer can be had, that a card is added and that a commit goes through. `create` makes
columns of any name; which ones the library takes is a parameter of `Folder.create?`.
-/

namespace CardCatalog

structure Catalog where
  collection : Collection
  store : Store
  pending : List Card

structure CardCounts where
  total : Nat
  -- every document type of the collection, cards or not
  types : Dict Nat

namespace Catalog

def mismatchMessage : String :=
  "index schema does not match the configured document types; rebuild it"

def create (collection : Collection) : Catalog := ⟨collection, .empty collection.columns, []⟩

/-- What was pending when a store was closed is lost. -/
def open? (collection : Collection) (store : Store) : Option Catalog :=
  if collection.columns.all store.columns.contains then some ⟨collection, store, []⟩ else none

variable (catalog : Catalog)

def columns : List Text := catalog.collection.columns

def add (entry : Entry) : Except EntryFault Catalog :=
  (entry.card? catalog.collection).map fun card =>
    { catalog with pending := catalog.pending ++ [card] }

def commit : Catalog :=
  { catalog with store := catalog.store.commit catalog.pending, pending := [] }

def shown (card : Card) : Card :=
  { card with
    fields := card.fields.filterMap fun name value =>
      if catalog.columns.contains name then some value else none }

def get? (id : Text) : Option Card :=
  (catalog.store.cards.find? (·.id == id)).map catalog.shown

def counts : CardCounts :=
  let cards := catalog.store.cards
  { total := cards.length
    types := .ofPairs (catalog.collection.types.map fun type =>
      (type.name, (cards.filter (·.type == type.name)).length)) }

end Catalog

end CardCatalog
