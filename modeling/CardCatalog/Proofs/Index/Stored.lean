import CardCatalog.Proofs.Collection.Dates
import CardCatalog.Proofs.Index.Reopening
import CardCatalog.Report

/-!
What is stored of an entry is what was added. From the moment it is added until another
entry with its id is, the card made of it is the last one of its id, first among the
pending cards and after a commit among those that the index shows; so every way of reading
it back gives the same card.
-/

namespace CardCatalog

/-- What a card keeps of an entry: of the fields that the type has those that are not
blank, trimmed, and the year that was given or that the year source begins with. -/
structure Stores (entry : Entry) (type : DocumentType) (card : Card) : Prop where
  id : card.id = entry.id
  typed : card.type = entry.type
  fields : ∀ name value, card.fields.get? name = some value ↔
    name ∈ type.fieldNames ∧ ∃ given, entry.fields.get? name = some given ∧
      (∃ c ∈ given, Text.isBlank c = false) ∧ value = Text.trim given
  year : ∀ year, card.year = some year ↔ entry.year = some year ∨
    entry.year = none ∧ ∃ source ∈ type.yearSource, ∃ date,
      entry.fields.get? source = some date ∧ BeginsWith (Text.trim date) year

theorem Text.trim_ne_nil_iff {t : Text} : trim t ≠ [] ↔ ∃ c ∈ t, isBlank c = false := by
  constructor
  · intro filled
    by_contra blank
    refine filled ?_
    have all : ∀ c ∈ t, isBlank c = true := by simpa using blank
    rw [trim, stripped, List.dropWhile_eq_nil_iff.mpr all]
    rfl
  · rintro ⟨c, inside, solid⟩
    exact trim_ne_nil inside solid

theorem Session.stores_stored {entry : Entry} {type : DocumentType}
    (named : type.name = entry.type) : Stores entry type (stored entry type) where
  id := rfl
  typed := named
  fields := fun name value => by
    rw [stored, Entry.storedFields, Dict.get?_filterMap, Option.bind_eq_some_iff]
    have kept (given : Text) :
        (if (Text.trim given).isEmpty || !type.fieldNames.contains name then none
          else some (Text.trim given)) = some value ↔
        name ∈ type.fieldNames ∧ (∃ c ∈ given, Text.isBlank c = false) ∧
          value = Text.trim given := by
      rw [← Text.trim_ne_nil_iff, Option.ite_none_left_eq_some, Option.some_inj,
        Bool.or_eq_true, not_or]
      simp only [List.isEmpty_iff, Bool.not_eq_true', Bool.not_eq_false, List.contains_iff_mem,
        eq_comm (a := value)]
      tauto
    constructor
    · rintro ⟨given, found, same⟩
      obtain ⟨own, filled, rfl⟩ := (kept given).mp same
      exact ⟨own, given, found, filled, rfl⟩
    · rintro ⟨own, given, found, filled, same⟩
      exact ⟨given, found, (kept given).mpr ⟨own, filled, same⟩⟩
  year := fun year => by
    rw [stored, Entry.storedYear, Option.or_eq_some_iff]
    refine or_congr_right (and_congr_right fun _ => ?_)
    simp only [Option.bind_eq_some_iff, yearOfDate_eq_some, Option.mem_def]
    constructor
    · rintro ⟨date, ⟨source, asked, found⟩, begins⟩
      exact ⟨source, asked, date, found, begins⟩
    · rintro ⟨source, asked, date, found, begins⟩
      exact ⟨date, ⟨source, asked, found⟩, begins⟩

theorem Latest.last?_append_other {given later : List Card} {id : Text}
    (other : ∀ card ∈ later, card.id ≠ id) : last? (given ++ later) id = last? given id := by
  have none : later.reverse.find? (·.id == id) = none := by
    refine List.find?_eq_none.mpr fun card member => ?_
    simpa using other card (List.mem_reverse.mp member)
  rw [last?, List.reverse_append, List.find?_append, none, Option.none_or, last?]

theorem Latest.last?_concat (given : List Card) (card : Card) :
    last? (given ++ [card]) card.id = some card := by
  simp [last?]

namespace Catalog

/-- The card will be the last one of its id, as soon as it is committed. -/
structure Awaits (collection : Collection) (card : Card) (given : List Card)
    (catalog : Catalog) : Prop where
  reached : Reached given catalog
  same : catalog.collection = collection
  last : Latest.last? (given ++ catalog.pending) card.id = some card

/-- The card is the last one of its id that was committed, and no other one is pending. -/
structure Settles (collection : Collection) (card : Card) (given : List Card)
    (catalog : Catalog) : Prop where
  reached : Reached given catalog
  same : catalog.collection = collection
  last : Latest.last? given card.id = some card
  fresh : ∀ other ∈ catalog.pending, other.id ≠ card.id

/-- The step adds no card with the id. -/
def Spares (collection : Collection) (id : Text) (step : Session.Step) : Prop :=
  ∀ entry, step = .add entry → Session.Accepted collection entry → entry.id ≠ id

section Steps

variable {collection : Collection} {card : Card} {given : List Card} {catalog : Catalog}
  {step : Session.Step}

theorem add_spares (same : catalog.collection = collection) {entry : Entry}
    (spares : Spares collection card.id (.add entry)) :
    Session.next catalog (.add entry) = catalog ∨ ∃ other, other.id ≠ card.id ∧
      catalog.add entry = .ok { catalog with pending := catalog.pending ++ [other] } := by
  cases made : entry.card? catalog.collection with
  | error fault => exact .inl (Session.next_rejected (add_fault made))
  | ok other =>
    have accepted := Session.accepted_iff.mpr ⟨other, made⟩
    obtain ⟨type, _, _, rfl⟩ := Session.card?_ok made
    exact .inr ⟨_, spares entry rfl (same ▸ accepted), add_card made⟩

theorem Awaits.next (awaits : Awaits collection card given catalog)
    (spares : Spares collection card.id step) :
    ∃ given, Awaits collection card given (Session.next catalog step) := by
  cases step with
  | add entry =>
    rcases add_spares awaits.same spares with stays | ⟨other, differs, added⟩
    · exact ⟨given, stays.symm ▸ awaits⟩
    · rw [Session.next_added added]
      refine ⟨given, .add awaits.reached added, awaits.same, ?_⟩
      rw [← List.append_assoc, Latest.last?_append_other (by simpa using differs)]
      exact awaits.last
  | commit =>
    exact ⟨_, .commit awaits.reached, awaits.same, (List.append_nil _).symm ▸ awaits.last⟩
  | _ => exact ⟨given, awaits⟩

theorem Awaits.commit (awaits : Awaits collection card given catalog) :
    Settles collection card (given ++ catalog.pending) catalog.commit :=
  ⟨.commit awaits.reached, awaits.same, awaits.last, nofun⟩

theorem Settles.next (settles : Settles collection card given catalog)
    (spares : Spares collection card.id step) :
    ∃ given, Settles collection card given (Session.next catalog step) := by
  cases step with
  | add entry =>
    rcases add_spares settles.same spares with stays | ⟨other, differs, added⟩
    · exact ⟨given, stays.symm ▸ settles⟩
    · rw [Session.next_added added]
      refine ⟨given, .add settles.reached added, settles.same, settles.last, ?_⟩
      intro pending member
      rcases List.mem_append.mp member with old | new
      · exact settles.fresh pending old
      · rwa [List.mem_singleton.mp new]
  | commit =>
    refine ⟨_, .commit settles.reached, settles.same, ?_, nofun⟩
    rw [Latest.last?_append_other settles.fresh]
    exact settles.last
  | _ => exact ⟨given, settles⟩

theorem Settles.reopen (settles : Settles collection card given catalog) :
    ∃ later, (Folder.opened catalog).reopen collection = .opened later ∧
      Settles collection card given later := by
  have reachable := reachable_of_reached settles.reached
  obtain ⟨types, valid⟩ := valid_of_reachable reachable
  have covered := (regular_of_reachable reachable).columns
  rw [settles.same] at valid
  rw [columns, settles.same] at covered
  have opens : open? collection catalog.store = some ⟨collection, catalog.store, []⟩ :=
    open?_eq_some.mpr ⟨covered, rfl⟩
  have none (other : Card) (member : other ∈ []) : other.id ≠ card.id :=
    absurd member List.not_mem_nil
  exact ⟨_, Folder.reopen_eq_opened.mpr opens, .reopen valid settles.reached opens, rfl,
    settles.last, none⟩

end Steps

section Runs

variable {collection : Collection} {card : Card} {given : List Card} {catalog : Catalog}

theorem Awaits.after {steps : List Session.Step} (awaits : Awaits collection card given catalog)
    (spares : ∀ step ∈ steps, Spares collection card.id step) :
    ∃ given later, (Folder.opened catalog).after (steps.map .step) = .opened later ∧
      Awaits collection card given later := by
  induction steps generalizing given catalog with
  | nil => exact ⟨given, catalog, rfl, awaits⟩
  | cons step rest ih =>
    obtain ⟨given, next⟩ := awaits.next (spares step (by simp))
    exact ih next fun other member => spares other (List.mem_cons_of_mem step member)

theorem Settles.after {uses : List Use} (settles : Settles collection card given catalog)
    (spares : ∀ step, .step step ∈ uses → Spares collection card.id step)
    (same : ∀ other, .reopen other ∈ uses → other = collection) :
    ∃ given later, (Folder.opened catalog).after uses = .opened later ∧
      Settles collection card given later := by
  induction uses generalizing given catalog with
  | nil => exact ⟨given, catalog, rfl, settles⟩
  | cons use rest ih =>
    have behind (later : Catalog) (given : List Card)
        (settles : Settles collection card given later) :=
      ih settles (fun step member => spares step (List.mem_cons_of_mem use member))
        fun other member => same other (List.mem_cons_of_mem use member)
    cases use with
    | step step =>
      obtain ⟨given, next⟩ := settles.next (spares step (by simp))
      exact behind _ given next
    | reopen other =>
      obtain ⟨later, opened, next⟩ := settles.reopen
      rw [← same other (by simp)] at opened
      obtain ⟨given, last, after, found⟩ := behind later given next
      refine ⟨given, last, ?_, found⟩
      rw [← after, ← opened]
      rfl

theorem Settles.get? {entry : Entry} {type : DocumentType} (own : type ∈ collection.types)
    (settles : Settles collection (Session.stored entry type) given catalog) :
    catalog.get? entry.id = some (Session.stored entry type) := by
  have shown := Session.shown_stored (settles.same.symm ▸ own) entry
  have found := settles.last
  rw [← Latest.find_cards, ← cards_of_reached settles.reached] at found
  change (catalog.store.cards.find? (·.id == entry.id)).map catalog.shown = _
  exact (congrArg (Option.map catalog.shown) found).trans (congrArg some shown)

end Runs

/-- What was added and committed is read back as it was given, whatever is done with the
index meanwhile and afterwards, as long as no other entry of its id is added: what its type
has no field for is left out, and what is left is trimmed. -/
theorem stored_as_given {catalog : Catalog} (reachable : catalog.Reachable) {entry : Entry}
    (accepted : Session.Accepted catalog.collection entry)
    {between : List Session.Step} {rest : List Use}
    (spares : ∀ step, step ∈ between ∨ .step step ∈ rest →
      Spares catalog.collection entry.id step)
    (same : ∀ collection, .reopen collection ∈ rest → collection = catalog.collection) :
    ∃ later, (Folder.opened catalog).after
        (.step (.add entry) :: (between.map .step ++ .step .commit :: rest)) = .opened later ∧
      ∃ type ∈ catalog.collection.types, type.name = entry.type ∧
        ∃ card, Stores entry type card ∧ later.get? entry.id = some card ∧
          Json.card card = .record [("id", .string entry.id), ("doctype", .string entry.type),
            ("score", .null), ("year", .optional .int card.year), ("fields", .dict card.fields),
            ("highlights", .object [])] ∧
          ∀ request found, later.retrieve request = .ok found →
            ∀ hit ∈ found.hits, hit.card.id = entry.id → hit.card = card := by
  obtain ⟨card, made⟩ := Session.accepted_iff.mp accepted
  obtain ⟨type, own, named, rfl⟩ := Session.card?_ok made
  have added := add_card made
  obtain ⟨given, reached⟩ := reached_of_reachable reachable
  have awaits : Awaits catalog.collection (Session.stored entry type) given
      (Session.next catalog (.add entry)) := by
    rw [Session.next_added added]
    refine ⟨.add reached added, rfl, ?_⟩
    rw [← List.append_assoc]
    exact Latest.last?_concat _ (Session.stored entry type)
  obtain ⟨_, midway, arrives, awaits⟩ := awaits.after fun step member => spares step (.inl member)
  obtain ⟨_, later, stays, settles⟩ :=
    awaits.commit.after (fun step member => spares step (.inr member)) same
  have found := settles.get? own
  refine ⟨later, ?_, type, own, named, _, Session.stores_stored named, found, ?_, ?_⟩
  · rw [← stays, Folder.after, List.foldl_cons, List.foldl_append]
    exact congrArg (fun folder => (Folder.next folder (.step .commit)).after rest) arrives
  · rw [← named]
    rfl
  · intro request hits answered hit member id
    have regular := regular_of_reachable (reachable_of_reached settles.reached)
    have shown := get?_of_hit regular answered member
    rw [id, found] at shown
    exact (Option.some.inj shown).symm

-- A deed of which one field is blank and another one belongs to pledges.
def dated : DocumentType :=
  { name := "akte".toList
    title := none
    fields := [⟨"koper".toList, none⟩, ⟨"inhoud".toList, none⟩, ⟨"datum".toList, none⟩]
    sortColumns := .empty
    yearSource := some "datum".toList }

def bond : DocumentType :=
  { dated with name := "pand".toList, fields := [⟨"borg".toList, none⟩], yearSource := none }

def sale : Entry :=
  ⟨"1".toList, dated.name, none, .ofPairs [("koper".toList, " jan\t".toList),
    ("inhoud".toList, "  ".toList), ("datum".toList, " 1654-03-12".toList),
    ("borg".toList, "piet".toList)]⟩

def loan (id : String) : Session.Step :=
  .add ⟨id.toList, bond.name, none, .ofPairs [("borg".toList, "kees".toList)]⟩

theorem stored_as_given_sale :
    Session.Accepted ⟨[dated, bond]⟩ sale ∧ ∃ later card,
      (Folder.opened (.create ⟨[dated, bond]⟩)).after [.step (.add sale), .step (loan "2"),
        .step .commit, .reopen ⟨[dated, bond]⟩, .step (loan " "), .step .commit] = .opened later ∧
      later.get? "1".toList = some card ∧ card.year = some 1654 ∧
      card.fields.get? "koper".toList = some "jan".toList ∧
      card.fields.get? "inhoud".toList = none ∧ card.fields.get? "borg".toList = none := by
  have accepted : Session.Accepted ⟨[dated, bond]⟩ sale := by decide
  have valid : Collection.ofTypes [dated, bond] = .ok ⟨[dated, bond]⟩ := rfl
  have other (id : String) (differs : id.toList ≠ "1".toList) :
      Spares ⟨[dated, bond]⟩ sale.id (loan id) := by
    intro entry same _
    cases same
    exact differs
  have spares : ∀ step, step ∈ [loan "2"] ∨ Use.step step ∈
      [.reopen ⟨[dated, bond]⟩, .step (loan " "), .step .commit] →
      Spares ⟨[dated, bond]⟩ sale.id step := by
    intro step member
    have which : step = loan "2" ∨ step = loan " " ∨ step = .commit := by simpa using member
    rcases which with rfl | rfl | rfl
    · exact other "2" (by decide)
    · exact other " " (by decide)
    · exact nofun
  obtain ⟨later, after, type, own, named, card, stores, found, _⟩ :=
    stored_as_given (.create valid) accepted spares (by simp [create])
  have deed : type = dated := by
    have which : type = dated ∨ type = bond := by simpa [create] using own
    rcases which with rfl | rfl
    · rfl
    · exact absurd named (by decide)
  subst deed
  refine ⟨accepted, later, card, after, found, ?_, ?_, ?_, ?_⟩
  · exact (stores.year 1654).mpr (.inr ⟨rfl, _, rfl, _, rfl, 1654, by decide⟩)
  · exact (stores.fields _ _).mpr ⟨by decide, _, rfl, ⟨'j', by decide, by decide⟩, by decide⟩
  · exact Option.eq_none_iff_forall_ne_some.mpr fun value stored => by
      obtain ⟨_, given, found, ⟨c, inside, solid⟩, _⟩ := (stores.fields _ _).mp stored
      cases found
      have blank : c = ' ' := by simpa using inside
      rw [blank] at solid
      cases solid
  · exact Option.eq_none_iff_forall_ne_some.mpr fun value stored =>
      absurd ((stores.fields _ _).mp stored).1 (by decide)

end Catalog

end CardCatalog
