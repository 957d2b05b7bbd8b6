import CardCatalog.Index.Archive
import CardCatalog.Proofs.Dict
import CardCatalog.Proofs.Index.Latest
import CardCatalog.Proofs.Json

/-!
A store that was written is read back as it was, if an archive can hold it at all:
years are words with a sign, and every segment has the columns of its store. What
is read can always be written again, and a commit of cards with such years does
not change that. An archive is one line, and this line is no entry.
-/

namespace CardCatalog

theorem Dict.ofPairs_entries {α : Type} (d : Dict α) : ofPairs d.entries = d :=
  ext_entries fun _ _ => (ofPairs_perm d.keys_nodup).mem_iff

def Card.Lasting (card : Card) : Prop := ∀ year ∈ card.year, Word.holdsSigned year = true

structure Store.Lasting (s : Store) : Prop where
  columns : ∀ seg ∈ s.segments, seg.columns = s.columns
  years : ∀ seg ∈ s.segments, ∀ h ∈ seg.held, h.card.Lasting

theorem Held.card_of_mem_ofCards {cards : List Card} {h : Held} (member : h ∈ ofCards cards) :
    h.card ∈ cards := by
  rw [← card_ofCards cards]
  exact List.mem_map_of_mem member

theorem Store.lasting_empty (columns : List Text) : (Store.empty columns).Lasting :=
  ⟨fun _ member => absurd member List.not_mem_nil, fun _ member => absurd member List.not_mem_nil⟩

theorem Store.Lasting.commit {s : Store} (lasting : s.Lasting) {added : List Card}
    (words : ∀ card ∈ added, card.Lasting) : (s.commit added).Lasting := by
  unfold Store.commit
  split
  · exact lasting
  · constructor
    · intro seg member
      rcases List.mem_append.mp member with kept | new
      · obtain ⟨old, inside, rfl⟩ := List.mem_map.mp (List.mem_filter.mp kept).1
        exact lasting.columns old inside
      · rw [List.mem_singleton.mp new]
        rfl
    · intro seg member h held
      rcases List.mem_append.mp member with kept | new
      · obtain ⟨old, inside, rfl⟩ := List.mem_map.mp (List.mem_filter.mp kept).1
        obtain ⟨before, listed, rfl⟩ := List.mem_map.mp held
        exact lasting.years old inside before listed
      · rw [List.mem_singleton.mp new] at held
        exact words _ (Held.card_of_mem_ofCards held)

namespace Entry

theorem year?_optional {year : Option Int} (word : ∀ y ∈ year, Word.holdsSigned y = true) :
    year? (.optional .int year) = some year := by
  cases year with
  | none => rfl
  | some y =>
    have read : (Json.int y).word? = some y := by
      rw [Json.word?, Json.int?_int]
      exact Option.filter_eq_some_iff.mpr ⟨rfl, word y rfl⟩
    show (Json.int y).word?.map some = _
    rw [read]
    rfl

theorem word_of_year? {j : Json} {year : Option Int} (read : year? j = some year) :
    ∀ y ∈ year, Word.holdsSigned y = true := by
  unfold year? at read
  split at read
  · cases read
    intro y none
    cases none
  · obtain ⟨y, found, rfl⟩ := Option.map_eq_some_iff.mp read
    intro z same
    rw [← Option.mem_some_iff.mp same]
    exact (Option.filter_eq_some_iff.mp found).2

theorem word_of_ofJson? {j : Json} {entry : Entry} (read : ofJson? j = some entry) :
    ∀ y ∈ entry.year, Word.holdsSigned y = true := by
  have never : ∀ y ∈ (none : Option Int), Word.holdsSigned y = true := fun _ none => nomatch none
  unfold ofJson? at read
  split at read <;> try simp only [bind, Option.bind_eq_some_iff, pure, Option.some.injEq] at read
  · obtain ⟨_, _, _, _, _, _, _, _, found, _, year, given, _, _, _, _, rfl⟩ := read
    cases found with
    | none =>
      cases given
      exact never
    | some j => exact word_of_year? given
  · obtain ⟨_, _, _, _, rfl⟩ := read
    exact never
  · obtain ⟨_, _, _, _, year, given, rfl⟩ := read
    exact word_of_year? given
  · obtain ⟨_, _, _, _, year, given, _, _, rfl⟩ := read
    exact word_of_year? given
  · cases read

theorem fields?_dict (d : Dict Text) : fields? (.dict d) = some d := by
  have read : (d.entries.map fun e => (e.1, Json.string e.2)).mapM
      (fun m => m.2.text?.map (m.1, ·)) = some d.entries := by
    generalize d.entries = entries
    induction entries with
    | nil => rfl
    | cons entry rest ih =>
      rw [List.map_cons, List.mapM_cons, ih]
      rfl
  show (_ : Option (List (Text × Text))).map Dict.ofPairs = some d
  rw [read, Option.map_some, Dict.ofPairs_entries]

end Entry

namespace Archive

theorem list?_map {α β : Type} {write : α → Json} {read : Json → Option β} {f : α → β}
    {items : List α} (each : ∀ item ∈ items, read (write item) = some (f item)) :
    list? read (.array (items.map write)) = some (items.map f) := by
  show (items.map write).mapM read = _
  induction items with
  | nil => rfl
  | cons item rest ih =>
    rw [List.map_cons, List.mapM_cons, each item (by simp),
      ih fun other member => each other (List.mem_cons_of_mem item member)]
    rfl

theorem mem_of_list? {β : Type} {read : Json → Option β} {j : Json} {items : List β}
    (found : list? read j = some items) : ∀ item ∈ items, ∃ part, read part = some item := by
  obtain ⟨parts, made⟩ : ∃ parts : List Json, parts.mapM read = some items := by
    obtain ⟨parts, _, made⟩ := Option.bind_eq_some_iff.mp found
    exact ⟨parts, made⟩
  clear found
  induction parts generalizing items with
  | nil =>
    cases made
    intro item member
    exact absurd member List.not_mem_nil
  | cons part rest ih =>
    rw [List.mapM_cons] at made
    simp only [bind, Option.bind_eq_some_iff, pure, Option.some.injEq] at made
    obtain ⟨first, read, others, tail, rfl⟩ := made
    intro item member
    rcases List.mem_cons.mp member with rfl | later
    · exact ⟨part, read⟩
    · exact ih tail item later

theorem ofJson?_card {c : Card} (lasting : c.Lasting) :
    Entry.ofJson? (card c) = some ⟨c.id, c.type, c.year, c.fields⟩ := by
  rw [card, Entry.ofJson?, Entry.year?_optional lasting, Entry.fields?_dict]
  rfl

theorem card?_card {c : Card} (lasting : c.Lasting) : card? (card c) = some c := by
  rw [card?, ofJson?_card lasting]
  rfl

theorem held?_held {h : Held} (lasting : h.card.Lasting) : held? (held h) = some h := by
  rw [held?, held]
  simp only [pair?, mark?, bind, Option.bind_some, card?_card lasting]
  rfl

theorem ofHeld_held (s : Segment) : Segment.ofHeld s.columns s.held = s := by
  obtain ⟨columns, held, inverted, rfl⟩ := s
  rfl

theorem segment?_segment {s : Segment} (lasting : ∀ h ∈ s.held, h.card.Lasting) :
    segment? s.columns (segment s) = some s := by
  have read := @list?_map _ _ held held? id s.held fun h member => held?_held (lasting h member)
  rw [List.map_id] at read
  rw [segment?, segment, read, Option.map_some, ofHeld_held]

theorem store?_store {s : Store} (lasting : s.Lasting) : store? (store s) = some s := by
  have columns := @list?_map _ _ Json.string Json.text? id s.columns fun _ _ => rfl
  have segments := @list?_map _ _ segment (segment? s.columns) id s.segments fun seg member =>
    lasting.columns seg member ▸ segment?_segment (lasting.years seg member)
  rw [List.map_id] at columns segments
  rw [store?, store, Json.texts]
  simp only [pair?, bind, Option.bind_some, columns, segments]
  rfl

theorem plain_array {α : Type} {write : α → Json} (each : ∀ item, (write item).Plain)
    (items : List α) : (Json.array (items.map write)).Plain := by
  refine .array fun j member => ?_
  obtain ⟨item, _, rfl⟩ := List.mem_map.mp member
  exact each item

theorem plain_card (c : Card) : (card c).Plain := by
  have year : (Json.optional .int c.year).Plain := by
    cases c.year with
    | none => exact .null
    | some y => exact .int y
  have fields : (Json.dict c.fields).Plain := by
    refine .object fun member inside => ?_
    obtain ⟨entry, _, rfl⟩ := List.mem_map.mp inside
    exact .string entry.2
  have none : ∀ j ∈ ([] : List Json), j.Plain := fun _ member => absurd member List.not_mem_nil
  refine .array ?_
  simp only [List.forall_mem_cons]
  exact ⟨.string c.id, .string c.type, year, fields, none⟩

theorem plain_pair {first second : Json} (one : first.Plain) (two : second.Plain) :
    (Json.array [first, second]).Plain := by
  refine .array ?_
  simp only [List.forall_mem_cons]
  exact ⟨one, two, fun _ member => absurd member List.not_mem_nil⟩

theorem plain_store (s : Store) : (store s).Plain := by
  have segments (seg : Segment) : (segment seg).Plain :=
    plain_array (fun h : Held => plain_pair (plain_card h.card) (.bool h.live)) seg.held
  exact plain_pair (plain_array .string s.columns) (plain_array segments s.segments)

/-- An archive says all there is to a store. -/
theorem read?_write {s : Store} (lasting : s.Lasting) : read? (write s) = some s := by
  rw [read?, write, Json.read?_compact (plain_store s), Option.bind_some, store?_store lasting]

theorem lasting_of_read {t : Text} {s : Store} (found : read? t = some s) : s.Lasting := by
  obtain ⟨j, _, found⟩ := Option.bind_eq_some_iff.mp found
  simp only [store?, bind, Option.bind_eq_some_iff, pure, Option.some.injEq] at found
  obtain ⟨_, _, columns, _, segments, parts, rfl⟩ := found
  have shape : ∀ seg ∈ segments, ∃ held : List Held,
      (∀ h ∈ held, h.card.Lasting) ∧ seg = Segment.ofHeld columns held := by
    intro seg member
    obtain ⟨part, read⟩ := mem_of_list? parts seg member
    obtain ⟨held, listed, rfl⟩ := Option.map_eq_some_iff.mp read
    refine ⟨held, fun h inside => ?_, rfl⟩
    obtain ⟨part, read⟩ := mem_of_list? listed h inside
    simp only [held?, bind, Option.bind_eq_some_iff, pure, Option.some.injEq] at read
    obtain ⟨_, _, card, made, _, _, rfl⟩ := read
    obtain ⟨entry, read, rfl⟩ := Option.map_eq_some_iff.mp made
    exact Entry.word_of_ofJson? read
  constructor
  · intro seg member
    obtain ⟨held, _, rfl⟩ := shape seg member
    rfl
  · intro seg member
    obtain ⟨held, lasting, rfl⟩ := shape seg member
    exact lasting

theorem solid_write (s : Store) : '\n' ∉ write s := Json.solid_compact (plain_store s)

theorem ofJson?_store (s : Store) : Entry.ofJson? (store s) = none := rfl

end Archive

end CardCatalog
