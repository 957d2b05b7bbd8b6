import CardCatalog.Proofs.Index.History
import CardCatalog.Proofs.Index.Refinement
import CardCatalog.Proofs.Index.Search

/-!
An index on disk through any number of reopenings, with collections that may name
more fields than the last one or fewer. The columns stay those of the collection
it was made for, so that one decides which collections can open it; what was
committed stays, whoever opens it, and is shown as far as the collection of the
day has names for it. The search library makes the columns of a new index, and says
which names it takes for them; a collection may have others.
-/

namespace CardCatalog

/-- An index on disk, read through a catalog, or closed since the last try to open it. -/
inductive Folder where
  | opened (catalog : Catalog)
  | closed (store : Store)

inductive Use where
  | step (step : Session.Step)
  | reopen (collection : Collection)

namespace Folder

def store : Folder → Store
  | opened catalog => catalog.store
  | closed store => store

def reopen (folder : Folder) (collection : Collection) : Folder :=
  match Catalog.open? collection folder.store with
  | some catalog => opened catalog
  | none => closed folder.store

/-- A new index is opened like any other, on a store with the columns of the collection,
unless the library refuses the name of one. -/
def create? (takes : Text → Bool) (collection : Collection) : Option Folder :=
  if collection.columns.all takes then
    some (reopen (closed (.empty collection.columns)) collection)
  else none

def step (step : Session.Step) : Folder → Folder
  | opened catalog => opened (Session.next catalog step)
  | closed store => closed store

def next (folder : Folder) : Use → Folder
  | .step step => folder.step step
  | .reopen collection => folder.reopen collection

def after (folder : Folder) (uses : List Use) : Folder := uses.foldl next folder

end Folder

/-- What its callers keep in mind: the cards that were committed, in the order in which
they were added, and of an open index the collection and the cards added since. -/
structure Record where
  committed : List Card
  opened : Option (Collection × List Card)

namespace Record

def create (collection : Collection) : Record := ⟨[], some (collection, [])⟩

def step (record : Record) : Session.Step → Record
  | .add entry =>
    { record with
      opened := record.opened.map fun o => (o.1, o.2 ++ (entry.card? o.1).toOption.toList) }
  | .commit => ⟨record.committed ++ (record.opened.map (·.2)).getD [], record.opened.map (·.1, [])⟩
  | _ => record

def reopen (columns : List Text) (record : Record) (collection : Collection) : Record :=
  { record with
    opened := if collection.columns ⊆ columns then some (collection, []) else none }

def next (columns : List Text) (record : Record) : Use → Record
  | .step step => record.step step
  | .reopen collection => record.reopen columns collection

def after (first : Collection) (uses : List Use) : Record :=
  uses.foldl (next first.columns) (create first)

end Record

namespace Catalog

/-- Of every id the last card committed with it, with the fields that have a name in the
collection, and of every type in the collection how many such cards there are. -/
structure Shows (catalog : Catalog) (committed : List Card) : Prop where
  found : ∀ card ∈ Latest.cards committed, ∃ shown,
    catalog.get? card.id = some shown ∧ shown.id = card.id ∧ shown.type = card.type ∧
      shown.year = card.year ∧ ∀ name, shown.fields.get? name =
        if name ∈ catalog.collection.columns then card.fields.get? name else none
  missing : ∀ id, catalog.get? id = none ↔ ∀ card ∈ committed, card.id ≠ id
  total : catalog.counts.total = (Latest.cards committed).length
  sum_le : (catalog.counts.types.entries.map (·.2)).sum ≤ catalog.counts.total
  sum_eq : (catalog.counts.types.entries.map (·.2)).sum = catalog.counts.total ↔
    ∀ card ∈ Latest.cards committed, ∃ type ∈ catalog.collection.types, type.name = card.type

variable {committed : List Card} {catalog : Catalog}

theorem names_of_reachable (reachable : catalog.Reachable) :
    (catalog.collection.types.map (·.name)).Nodup := by
  obtain ⟨types, valid⟩ := valid_of_reachable reachable
  exact Collection.names_nodup valid

theorem get?_shown (card : Card) (name : Text) : (catalog.shown card).fields.get? name =
    if name ∈ catalog.collection.columns then card.fields.get? name else none := by
  rw [shown, Dict.get?_filterMap]
  by_cases column : name ∈ catalog.collection.columns
  · simp [columns, column]
  · simp [columns, column]

theorem get?_eq_none {id : Text} :
    catalog.get? id = none ↔ ∀ card ∈ catalog.store.cards, card.id ≠ id := by
  rw [get?, Option.map_eq_none_iff, List.find?_eq_none]
  simp

theorem shows_of_reached (reached : catalog.Reached committed) : catalog.Shows committed := by
  have reachable := reachable_of_reached reached
  have regular := regular_of_reachable reachable
  have cards := cards_of_reached reached
  have sum := Session.sum_counts (names_of_reachable reachable)
  constructor
  case found =>
    intro card live
    exact ⟨_, get?_of_mem regular (cards ▸ live), rfl, rfl, rfl, get?_shown card⟩
  case missing =>
    intro id
    rw [get?_eq_none, cards]
    constructor
    · intro none card member same
      have listed : id ∈ (Latest.cards committed).map (·.id) := by
        rw [Latest.ids_cards, List.mem_dedup]
        exact List.mem_map.mpr ⟨card, member, same⟩
      obtain ⟨other, live, other_id⟩ := List.mem_map.mp listed
      exact none other live other_id
    · intro none card live
      exact none card (Latest.mem_cards live)
  case total => exact congrArg List.length cards
  case sum_le =>
    rw [sum]
    exact List.length_filter_le _ _
  case sum_eq =>
    rw [sum, show catalog.counts.total = catalog.store.cards.length from rfl,
      List.length_filter_eq_length_iff, cards]
    simp

end Catalog

/-! How a folder and what is kept in mind of it stay together -/

namespace Folder

inductive Keeps (columns : List Text) : Record → Folder → Prop where
  | opened {committed : List Card} {catalog : Catalog} (reached : catalog.Reached committed)
      (same : catalog.store.columns = columns) :
      Keeps columns ⟨committed, some (catalog.collection, catalog.pending)⟩ (.opened catalog)
  | closed {committed : List Card} {catalog : Catalog} (reached : catalog.Reached committed)
      (same : catalog.store.columns = columns) :
      Keeps columns ⟨committed, none⟩ (.closed catalog.store)

variable {columns : List Text} {record : Record} {folder : Folder} {collection : Collection}

theorem Keeps.history (keeps : Keeps columns record folder) : ∃ catalog : Catalog,
    catalog.Reached record.committed ∧ catalog.store = folder.store ∧
      catalog.store.columns = columns := by
  cases keeps with
  | opened reached same => exact ⟨_, reached, rfl, same⟩
  | closed reached same => exact ⟨_, reached, rfl, same⟩

theorem reopen_eq_opened {catalog : Catalog} : folder.reopen collection = .opened catalog ↔
    Catalog.open? collection folder.store = some catalog := by
  unfold reopen
  split
  · rename_i opens
    simp [opens]
  · rename_i refused
    simp [refused]

theorem store_reopen (folder : Folder) (collection : Collection) :
    (folder.reopen collection).store = folder.store := by
  unfold reopen
  split
  · rename_i opens
    exact Catalog.store_of_open opens
  · rfl

theorem create?_eq_some {takes : Text → Bool} : create? takes collection = some folder ↔
    (∀ name ∈ collection.columns, takes name = true) ∧ folder = .opened (.create collection) := by
  have opens : reopen (closed (.empty collection.columns)) collection =
      .opened (.create collection) :=
    reopen_eq_opened.mpr (Catalog.open?_eq_some.mpr ⟨fun _ member => member, rfl⟩)
  rw [create?, opens, Option.ite_none_right_eq_some, List.all_eq_true, Option.some_inj,
    eq_comm (b := folder)]

theorem keeps_create {types : List DocumentType}
    (valid : Collection.ofTypes types = .ok collection) :
    Keeps collection.columns (.create collection) (.opened (.create collection)) :=
  .opened (.create valid) rfl

theorem keeps_step (keeps : Keeps columns record folder) (step : Session.Step) :
    Keeps columns (record.step step) (folder.step step) := by
  cases keeps with
  | closed reached same =>
    have kept := Keeps.closed reached same
    cases step with
    | commit => simpa [Record.step, Folder.step] using kept
    | _ => exact kept
  | opened reached same =>
    rename_i committed catalog
    have kept := Keeps.opened reached same
    cases step with
    | add entry =>
      cases made : entry.card? catalog.collection with
      | ok card =>
        have added := Catalog.add_card made
        have after := Keeps.opened (.add reached added) same
        simpa [Record.step, Folder.step, Session.next_added added, made, Except.toOption]
          using after
      | error fault =>
        have rejected := Catalog.add_fault made
        simpa [Record.step, Folder.step, Session.next_rejected rejected, made, Except.toOption]
          using kept
    | commit =>
      exact .opened (.commit reached)
        ((Store.columns_commit catalog.store catalog.pending).trans same)
    | _ => exact kept

theorem keeps_reopen {types : List DocumentType} (keeps : Keeps columns record folder)
    (valid : Collection.ofTypes types = .ok collection) :
    Keeps columns (record.reopen columns collection) (folder.reopen collection) := by
  obtain ⟨before, reached, same, kept⟩ := keeps.history
  unfold reopen
  rw [← same]
  split
  · rename_i catalog opens
    have reopened := Catalog.ReachedUnder.reopen valid reached opens
    obtain ⟨covered, rfl⟩ := Catalog.open?_eq_some.mp opens
    have within : collection.columns ⊆ columns := fun name => kept ▸ covered name
    rw [Record.reopen, if_pos within]
    exact .opened reopened kept
  · rename_i refused
    have missing : ¬ collection.columns ⊆ columns := fun within =>
      Catalog.open?_eq_none.mp refused fun name member => kept ▸ within member
    rw [Record.reopen, if_neg missing]
    exact .closed reached kept

def Accepted (uses : List Use) : Prop :=
  ∀ collection, Use.reopen collection ∈ uses → ∃ types, Collection.ofTypes types = .ok collection

theorem keeps_after {first : Collection} {types : List DocumentType}
    (valid : Collection.ofTypes types = .ok first) {uses : List Use} (accepted : Accepted uses) :
    Keeps first.columns (.after first uses) ((opened (.create first)).after uses) := by
  induction uses using List.reverseRecOn with
  | nil => exact keeps_create valid
  | append_singleton uses use ih =>
    have before := ih fun collection member => accepted collection (by simp [member])
    rw [Record.after, after, List.foldl_append, List.foldl_append]
    cases use with
    | step step => exact keeps_step before step
    | reopen collection =>
      obtain ⟨types, valid⟩ := accepted collection (by simp)
      exact keeps_reopen before valid

/-- What an index holds is what was committed, and an open one shows it. -/
structure Kept (record : Record) (folder : Folder) : Prop where
  cards : folder.store.cards = Latest.cards record.committed
  shows : ∀ catalog, folder = .opened catalog →
    record.opened = some (catalog.collection, catalog.pending) ∧ catalog.Shows record.committed

theorem Keeps.kept (keeps : Keeps columns record folder) : Kept record folder := by
  cases keeps with
  | opened reached _ =>
    refine ⟨Catalog.cards_of_reached reached, fun catalog same => ?_⟩
    cases same
    exact ⟨rfl, Catalog.shows_of_reached reached⟩
  | closed reached _ =>
    refine ⟨Catalog.cards_of_reached reached, fun catalog same => ?_⟩
    cases same

-- A deed that was committed, one that was not, and two other collections.
open Catalog (deeds deed)

-- A type that shares a field with deeds but has another name.
def gifts : DocumentType :=
  { deeds with name := "gift".toList, fields := [⟨"koper".toList, none⟩] }

def pledges : DocumentType :=
  { deeds with name := "pand".toList, fields := [⟨"koper".toList, none⟩, ⟨"borg".toList, none⟩] }

def inVain : List Use :=
  [.step (deed "1" "jan" "aan de bakker"), .step .commit, .step (deed "2" "piet" "huis"),
    .reopen ⟨[pledges]⟩, .step (deed "3" "kees" "hof")]

/-- A name that is not empty and does not begin with a hyphen. -/
def columnName : Text → Bool
  | [] => false
  | c :: _ => c != '-'

end Folder

end CardCatalog
