import CardCatalog.Proofs.Dict
import CardCatalog.Proofs.Index.Session

/-!
What a session shows is the map that its callers keep in mind: of every id the
card of the last entry accepted with it before the last commit. How often was
committed on the way, which segments there are and what was rejected does not
show in any answer about ids, counts and numbers of hits.
-/

namespace CardCatalog

namespace Session

def lastWith? (given : List Entry) (id : Text) : Option Entry := given.reverse.find? (·.id == id)

def ids (given : List Entry) : List Text := (given.map (·.id)).dedup

def idsOf (given : List Entry) (type : Text) : List Text :=
  (ids given).filter fun id => (lastWith? given id).any (·.type == type)

/-- An index shows of every id the last entry given with it, and nothing else. -/
structure Shows (collection : Collection) (catalog : Catalog) (given : List Entry) : Prop where
  missing : ∀ id, catalog.get? id = none ↔ ∀ entry ∈ given, entry.id ≠ id
  last : ∀ id entry, lastWith? given id = some entry →
    ∃ type ∈ collection.types, type.name = entry.type ∧
      catalog.get? id = some (stored entry type)
  total : catalog.counts.total = (ids given).length
  types : ∀ type ∈ collection.types,
    catalog.counts.types.get? type.name = some (idsOf given type.name).length
  sum : (catalog.counts.types.entries.map (·.2)).sum = catalog.counts.total
  hits : ∀ request found, catalog.retrieve request = .ok found →
    (found.hits.map (·.card.id)).Nodup ∧
      ∀ hit ∈ found.hits, catalog.get? hit.card.id = some hit.card

/-- The answers that do not depend on how the cards came to be committed. -/
structure Agree (left right : Catalog) : Prop where
  get : ∀ id, left.get? id = right.get? id
  counts : left.counts = right.counts
  found : ∀ request,
    (left.retrieve request).map (·.total) = (right.retrieve request).map (·.total)

section Entries

variable {collection : Collection} {given : List Entry}
  (accepted : ∀ entry ∈ given, Accepted collection entry)
include accepted

theorem ids_cardsOf : (cardsOf collection given).map (·.id) = given.map (·.id) := by
  induction given with
  | nil => rfl
  | cons entry rest ih =>
    have tail := ih fun other member => accepted other (List.mem_cons_of_mem entry member)
    obtain ⟨card, made⟩ := accepted_iff.mp (accepted entry (by simp))
    obtain ⟨type, _, _, rfl⟩ := card?_ok made
    simpa [cardsOf, made, Except.toOption, stored] using tail

theorem last?_cardsOf (id : Text) :
    Latest.last? (cardsOf collection given) id =
      (lastWith? given id).bind fun entry => (entry.card? collection).toOption := by
  unfold Latest.last? lastWith? cardsOf
  rw [← List.filterMap_reverse]
  have among : ∀ entry ∈ given.reverse, Accepted collection entry := fun entry member =>
    accepted entry (List.mem_reverse.mp member)
  generalize given.reverse = entries at among
  induction entries with
  | nil => rfl
  | cons entry rest ih =>
    have tail := ih fun other member => among other (List.mem_cons_of_mem entry member)
    obtain ⟨card, made⟩ := accepted_iff.mp (among entry (by simp))
    obtain ⟨type, _, _, rfl⟩ := card?_ok made
    by_cases hit : entry.id = id
    · simp [made, Except.toOption, stored, hit]
    · simpa [made, Except.toOption, stored, hit] using tail

end Entries

theorem accepted_of_adds (collection : Collection) (steps : List Step) :
    ∀ entry ∈ adds collection steps, Accepted collection entry := by
  intro entry member
  obtain ⟨step, _, made⟩ := List.mem_filterMap.mp member
  cases step with
  | add other =>
    by_cases yes : Accepted collection other
    · have same : other = entry := by simpa [added?, yes] using made
      exact same ▸ yes
    · simp [added?, yes] at made
  | commit => cases made
  | get id => cases made
  | counts => cases made
  | search request => cases made
  | spellings words fields size => cases made

theorem mem_cardsOf {collection : Collection} {given : List Entry} {card : Card}
    (member : card ∈ cardsOf collection given) :
    ∃ entry ∈ given, ∃ type ∈ collection.types, type.name = entry.type ∧
      card = stored entry type := by
  obtain ⟨entry, inside, made⟩ := List.mem_filterMap.mp member
  cases found : entry.card? collection with
  | ok other =>
    rw [found] at made
    cases made
    exact ⟨entry, inside, card?_ok found⟩
  | error fault =>
    rw [found] at made
    cases made

theorem fields_stored {entry : Entry} {type : DocumentType} {name value : Text}
    (member : (name, value) ∈ (stored entry type).fields.entries) : name ∈ type.fieldNames := by
  obtain ⟨old, _, kept⟩ := Dict.mem_filterMap.mp member
  by_contra foreign
  simp [foreign] at kept

def typeCounts (catalog : Catalog) : List (Text × Nat) :=
  catalog.collection.types.map fun type =>
    (type.name, (catalog.store.cards.filter (·.type == type.name)).length)

section Names

variable {catalog : Catalog} (names : (catalog.collection.types.map (·.name)).Nodup)
include names

theorem typeCounts_keys : ((typeCounts catalog).map (·.1)).Nodup := by
  rw [typeCounts, List.map_map]
  exact names

theorem sum_counts : (catalog.counts.types.entries.map (·.2)).sum =
    (catalog.store.cards.filter fun card =>
      (catalog.collection.types.map (·.name)).contains card.type).length := by
  have moved := ((Dict.ofPairs_perm (typeCounts_keys names)).map (·.2)).sum_nat
  have each := Latest.sum_by_type names catalog.store.cards
  rw [List.map_map] at each
  rw [typeCounts, List.map_map] at moved
  exact moved.trans each

end Names

theorem shown_stored {catalog : Catalog} {type : DocumentType}
    (own : type ∈ catalog.collection.types) (entry : Entry) :
    catalog.shown (stored entry type) = stored entry type := by
  have kept : (stored entry type).fields.filterMap (fun name value =>
      if catalog.columns.contains name then some value else none) = (stored entry type).fields := by
    refine Dict.filterMap_eq_self fun field inside => ?_
    exact if_pos (List.contains_iff_mem.mpr (Collection.mem_columns own (fields_stored inside)))
  rw [Catalog.shown, kept]

section Mirrored

variable {collection : Collection} {steps : List Step} {catalog : Catalog}
  (mirrors : Mirrors collection steps catalog)
include mirrors

theorem shown_live {card : Card} (live : card ∈ catalog.store.cards) :
    catalog.shown card = card := by
  rw [mirrors.cards] at live
  obtain ⟨entry, _, type, member, _, rfl⟩ := mem_cardsOf (Latest.mem_cards live)
  exact shown_stored (mirrors.same.symm ▸ member) entry

theorem get?_eq_last (id : Text) :
    catalog.get? id =
      (lastWith? (adds collection (settled steps)) id).bind fun entry =>
        (entry.card? collection).toOption := by
  rw [← last?_cardsOf (accepted_of_adds collection _), ← Latest.find_cards, ← mirrors.cards,
    Catalog.get?]
  cases found : catalog.store.cards.find? (·.id == id) with
  | none => rfl
  | some card => exact congrArg some (shown_live mirrors (List.mem_of_find?_eq_some found))

theorem ids_live : catalog.store.cards.map (·.id) = ids (adds collection (settled steps)) := by
  rw [mirrors.cards, Latest.ids_cards, ids_cardsOf (accepted_of_adds collection _), ids]

theorem get?_live {card : Card} (regular : catalog.Regular) (live : card ∈ catalog.store.cards) :
    catalog.get? card.id = some card :=
  (Catalog.get?_of_mem regular live).trans (congrArg some (shown_live mirrors live))

theorem type_of_last {id : Text} {card : Card} (found : catalog.get? id = some card) :
    (lastWith? (adds collection (settled steps)) id).map (·.type) = some card.type := by
  rw [get?_eq_last mirrors] at found
  obtain ⟨entry, last, made⟩ := Option.bind_eq_some_iff.mp found
  cases stored : entry.card? collection with
  | ok other =>
    rw [stored] at made
    cases made
    obtain ⟨type, _, same, rfl⟩ := card?_ok stored
    rw [last]
    exact congrArg some same.symm
  | error fault =>
    rw [stored] at made
    cases made

theorem count_of_type (regular : catalog.Regular) (type : Text) :
    (catalog.store.cards.filter (·.type == type)).length =
      (idsOf (adds collection (settled steps)) type).length := by
  rw [idsOf, ← ids_live mirrors, List.filter_map, List.length_map]
  refine congrArg List.length (List.filter_congr fun card live => ?_)
  have same := type_of_last mirrors (get?_live mirrors regular live)
  cases last : lastWith? (adds collection (settled steps)) card.id with
  | none =>
    rw [last] at same
    cases same
  | some entry =>
    rw [last] at same
    have equal : entry.type = card.type := Option.some.inj same
    simp [last, equal]

theorem type_live {card : Card} (live : card ∈ catalog.store.cards) :
    card.type ∈ collection.types.map (·.name) := by
  rw [mirrors.cards] at live
  obtain ⟨entry, _, type, member, _, rfl⟩ := mem_cardsOf (Latest.mem_cards live)
  exact List.mem_map.mpr ⟨type, member, rfl⟩

theorem get?_missing (id : Text) :
    catalog.get? id = none ↔ ∀ entry ∈ adds collection (settled steps), entry.id ≠ id := by
  have held : catalog.get? id = none ↔ id ∉ catalog.store.cards.map (·.id) := by
    simp [Catalog.get?]
  rw [held, ids_live mirrors, ids, List.mem_dedup]
  simp

theorem get?_last {id : Text} {entry : Entry}
    (last : lastWith? (adds collection (settled steps)) id = some entry) :
    ∃ type ∈ collection.types, type.name = entry.type ∧
      catalog.get? id = some (stored entry type) := by
  have among : entry ∈ adds collection (settled steps) :=
    List.mem_reverse.mp (List.mem_of_find?_eq_some last)
  obtain ⟨card, made⟩ := accepted_iff.mp (accepted_of_adds collection _ entry among)
  obtain ⟨type, member, same, rfl⟩ := card?_ok made
  have found := get?_eq_last mirrors id
  rw [last, Option.bind_some, made] at found
  exact ⟨type, member, same, found⟩

theorem counts_sum (names : (catalog.collection.types.map (·.name)).Nodup) :
    (catalog.counts.types.entries.map (·.2)).sum = catalog.counts.total := by
  have configured : ∀ card ∈ catalog.store.cards,
      (catalog.collection.types.map (·.name)).contains card.type = true := by
    intro card live
    simpa [mirrors.same] using type_live mirrors live
  rw [sum_counts names, List.filter_eq_self.mpr configured]
  rfl

end Mirrored

/-- What a session shows is the map that its callers keep in mind. -/
theorem shows_after {types : List DocumentType} {collection : Collection}
    (valid : Collection.ofTypes types = .ok collection) (steps : List Step) :
    Shows collection (after (.create collection) steps) (adds collection (settled steps)) := by
  have mirrors := mirrors_after collection steps
  have regular := Catalog.regular_of_reachable (reachable_after (.create valid) steps)
  have names := mirrors.same.symm ▸ Collection.names_nodup valid
  generalize after (.create collection) steps = catalog at mirrors regular names
  constructor
  case missing => exact get?_missing mirrors
  case last =>
    intro id entry last
    exact get?_last mirrors last
  case total =>
    rw [← ids_live mirrors, List.length_map]
    rfl
  case types =>
    intro type member
    rw [← count_of_type mirrors regular]
    apply (Dict.get?_ofPairs (typeCounts_keys names)).mpr
    exact List.mem_map.mpr ⟨type, mirrors.same ▸ member, rfl⟩
  case sum => exact counts_sum mirrors names
  case hits =>
    intro request found answered
    constructor
    · exact Catalog.hits_ids_nodup answered regular
    · intro hit member
      exact Catalog.get?_of_hit regular answered member

theorem rejected_iff {collection : Collection} {steps : List Step} {catalog : Catalog}
    (mirrors : Mirrors collection steps catalog) (entry : Entry) :
    (∃ fault, answer catalog (.add entry) = .rejected fault) ↔ ¬ Accepted collection entry := by
  rw [accepted_iff, ← mirrors.same]
  cases made : entry.card? catalog.collection with
  | ok card => simp [answer, Catalog.add_card made]
  | error fault => simp [answer, Catalog.add_fault made]

theorem agree_of_cards {left right : Catalog} (first : left.Regular) (second : right.Regular)
    (collection : left.collection = right.collection)
    (cards : left.store.cards = right.store.cards) : Agree left right := by
  have columns : left.columns = right.columns := by
    rw [Catalog.columns, collection, Catalog.columns]
  refine ⟨Catalog.get?_of_cards collection cards, Catalog.counts_of_cards collection cards,
    fun request => ?_⟩
  rw [Catalog.total_retrieve first, Catalog.total_retrieve second, Catalog.unknownColumn,
    Catalog.matched, columns, cards, Catalog.unknownColumn, Catalog.matched]

theorem adds_append (collection : Collection) (early later : List Step) :
    adds collection (early ++ later) = adds collection early ++ adds collection later :=
  List.filterMap_append

-- What is committed does not depend on when the earlier commits came.
theorem adds_work (collection : Collection) (steps : List Step) :
    adds collection steps = adds collection (steps.filter (!isCommit ·)) := by
  rw [adds, adds, List.filterMap_filter]
  refine List.filterMap_congr fun step _ => ?_
  cases step <;> rfl

theorem settled_after_commit (before rest : List Step) :
    settled (before ++ .commit :: rest) = before ++ .commit :: settled rest := by
  unfold settled
  rw [List.reverse_append, List.reverse_cons, List.append_assoc, List.dropWhile_append]
  split
  · rename_i none
    have empty : rest.reverse.dropWhile (!isCommit ·) = [] := by simpa using none
    have now : (!isCommit .commit) = false := rfl
    simp [empty, now]
  · simp

theorem adds_settled {before other : List Step}
    (work : before.filter (!isCommit ·) = other.filter (!isCommit ·)) (collection : Collection)
    (rest : List Step) :
    adds collection (settled (before ++ .commit :: rest)) =
      adds collection (settled (other ++ .commit :: rest)) := by
  rw [settled_after_commit, settled_after_commit, adds_append, adds_append, adds_work,
    work, ← adds_work]

/-- An index refines a map from ids to cards. Entries of an unknown type and those
without an id are rejected and leave no trace; of the others the last one of
every id counts, as soon as it is committed. How often was committed before the
last time makes no difference. -/
theorem session_shows_last_cards {types : List DocumentType} {collection : Collection}
    (valid : Collection.ofTypes types = .ok collection) (steps : List Step) :
    let catalog := after (.create collection) steps
    (∀ entry, (∃ fault, answer catalog (.add entry) = .rejected fault) ↔
      (∀ type ∈ collection.types, type.name ≠ entry.type) ∨ Text.trim entry.id = []) ∧
    (∀ entry fault, answer catalog (.add entry) = .rejected fault →
      ∀ later, answers (next catalog (.add entry)) later = answers catalog later) ∧
    Shows collection catalog (adds collection (settled steps)) ∧
    ∀ before other rest, steps = before ++ .commit :: rest →
      before.filter (!isCommit ·) = other.filter (!isCommit ·) →
      Agree catalog (after (.create collection) (other ++ .commit :: rest)) := by
  intro catalog
  have mirrors : Mirrors collection steps catalog := mirrors_after collection steps
  refine ⟨fun entry => ?_, fun entry fault rejected later => ?_, shows_after valid steps, ?_⟩
  · rw [rejected_iff mirrors, Accepted, not_and_or, not_not]
    simp
  · cases added : catalog.add entry with
    | ok _ => simp [answer, added] at rejected
    | error _ => rw [next_rejected added]
  · rintro before other rest rfl work
    have others := mirrors_after collection (other ++ .commit :: rest)
    refine agree_of_cards (Catalog.regular_of_reachable (reachable_after (.create valid) _))
      (Catalog.regular_of_reachable (reachable_after (.create valid) _))
      (mirrors.same.trans others.same.symm) ?_
    rw [mirrors.cards, others.cards, adds_settled work]

-- A card that is given again, with rejected entries in between.
def letters : DocumentType :=
  { name := "brief".toList
    title := none
    fields := [⟨"naam".toList, none⟩]
    sortColumns := .empty
    yearSource := none }

def letter (id name : String) : Entry :=
  ⟨id.toList, letters.name, none, Dict.empty.insert "naam".toList name.toList⟩

def resent : List Step :=
  [.add (letter "1" "jan"), .commit, .add (letter "1" "piet"), .add (letter " " "klaas"),
    .add ⟨"2".toList, "kaart".toList, none, .empty⟩, .commit, .add (letter "1" "kees")]

theorem session_shows_resent_letter :
    Collection.ofTypes [letters] = .ok ⟨[letters]⟩ ∧
      (after (.create ⟨[letters]⟩) resent).get? "1".toList =
        some (stored (letter "1" "piet") letters) ∧
      (after (.create ⟨[letters]⟩) resent).counts.total = 1 := by
  have valid : Collection.ofTypes [letters] = .ok ⟨[letters]⟩ := rfl
  have given : adds ⟨[letters]⟩ (settled resent) = [letter "1" "jan", letter "1" "piet"] := by cbv
  have last : lastWith? [letter "1" "jan", letter "1" "piet"] "1".toList =
      some (letter "1" "piet") := by cbv
  obtain ⟨_, _, shows, _⟩ := session_shows_last_cards valid resent
  rw [given] at shows
  generalize after (.create ⟨[letters]⟩) resent = catalog at shows ⊢
  obtain ⟨type, member, _, found⟩ := shows.last "1".toList (letter "1" "piet") last
  rw [List.mem_singleton.mp member] at found
  exact ⟨valid, found, shows.total.trans (by decide)⟩

end Session

end CardCatalog
