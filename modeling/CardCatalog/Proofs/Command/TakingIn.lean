import CardCatalog.Command.Run
import CardCatalog.Proofs.Command.FileTree
import CardCatalog.Proofs.Command.Intake
import CardCatalog.Proofs.Index.Refinement

/-!
Files taken into the catalog of a data folder. A fault in one of them leaves the
folder as it was found; without one, the folder keeps every entry that was counted,
and it does not matter whether the files are taken in together or one part after
the other. A fault is one of the files; the search library's own calls are taken to
succeed.
-/

namespace CardCatalog

namespace Command

/-- A command on a tree of files: what comes of it, and the tree that it leaves. -/
def on {α : Type} (tree : FileTree) (act : Run (StateM FileTree) α) :
    Except CommandFault α × FileTree :=
  act.run.run tree

theorem on_pure {α : Type} (tree : FileTree) (a : α) :
    on tree (pure a : Run (StateM FileTree) α) = (.ok a, tree) := rfl

theorem on_bind {α β : Type} (tree : FileTree) (act : Run (StateM FileTree) α)
    (next : α → Run (StateM FileTree) β) : on tree (act >>= next) =
      match on tree act with
      | (.ok a, after) => on after (next a)
      | (.error fault, after) => (.error fault, after) := by
  unfold on
  rw [ExceptT.run_bind, StateT.run_bind]
  rcases act.run.run tree with ⟨fault | a, after⟩ <;> rfl

theorem on_settle {α ε : Type} (tree : FileTree) (fault : ε → CommandFault) (out : Except ε α) :
    on tree (settle fault out) = (out.mapError fault, tree) := by
  cases out <;> rfl

theorem on_read (tree : FileTree) (path : Text) :
    on tree (FileTree.files.read path : Run (StateM FileTree) _) =
      (.ok (tree.read path), tree) := rfl

theorem on_makeFolder (tree : FileTree) (path : Text) :
    on tree (FileTree.files.makeFolder path : Run (StateM FileTree) _) =
      (.ok (tree.makeFolder path).2, (tree.makeFolder path).1) := rfl

theorem on_contents (tree : FileTree) (paths : List Text) :
    on tree (contents FileTree.files paths) =
      (.ok (paths.map fun path => (path, tree.read path)), tree) := by
  induction paths with
  | nil => rfl
  | cons path rest ih =>
    have first : on tree (do return (path, ← FileTree.files.read path) :
        Run (StateM FileTree) _) = (.ok (path, tree.read path), tree) := rfl
    unfold contents at ih ⊢
    rw [List.mapM_cons, on_bind, first]
    simp only [on_bind, ih, on_pure, List.map_cons]

theorem on_write (tree : FileTree) (path : Text) (octets : ByteArray) :
    on tree (FileTree.files.write path octets : Run (StateM FileTree) _) =
      match tree.write path octets with
      | .ok after => (.ok (.ok ()), after)
      | .error fault => (.ok (.error fault), tree) := by
  have ran : (FileTree.files.write path octets).run tree =
      match tree.write path octets with
      | .ok after => (.ok (), after)
      | .error fault => (.error fault, tree) := by
    unfold FileTree.files
    rw [StateT.run_bind, StateT.run_get, pure_bind]
    cases tree.write path octets <;> rfl
  show ((FileTree.files.write path octets).run tree >>= fun done =>
    pure (Except.ok done.1, done.2)) = _
  rw [ran]
  cases tree.write path octets <;> rfl

theorem on_save (tree : FileTree) (data : Text) (store : Store) :
    on tree (save FileTree.files data store) =
      match tree.write (catalogFile data) (Text.toOctets (Archive.write store)) with
      | .ok after => (.ok (), after)
      | .error fault => (.error (.file fault), tree) := by
  rw [save, on_bind, on_write]
  cases tree.write (catalogFile data) (Text.toOctets (Archive.write store)) <;> rfl

variable {tree : FileTree} {data : Text} {collection : Collection}

/-- It is this catalog that is opened in the folder, and opening it changes nothing. -/
def Holds (collection : Collection) (data : Text) (tree : FileTree) (catalog : Catalog) : Prop :=
  on tree (openCatalog FileTree.files collection data) = (.ok catalog, tree)

/-- The file says what the store is as the program itself writes it. -/
def Archived (tree : FileTree) (data : Text) (store : Store) : Prop :=
  tree.read (catalogFile data) = .ok (Text.toOctets (Archive.write store))

structure Stored (tree : FileTree) (data : Text) (store : Store) : Prop where
  folder : ∀ later, tree.Grows later →
    later.makeFolder (catalogFolder data) = (later, .ok ())
  file : ∃ octets, tree.read (catalogFile data) = .ok octets ∧
    (Text.ofOctets? octets).bind Archive.read? = some store

theorem stored_of_archived {after : FileTree} {store : Store}
    (folder : ∀ later, tree.Grows later → later.makeFolder (catalogFolder data) = (later, .ok ()))
    (grows : tree.Grows after) (archived : Archived after data store) (lasting : store.Lasting) :
    Stored after data store where
  folder := fun later more => folder later (grows.trans more)
  file := by
    refine ⟨_, archived, ?_⟩
    rw [Text.ofOctets?_toOctets]
    exact Archive.read?_write lasting

theorem holds_of_stored {store : Store} (stored : Stored tree data store)
    {catalog : Catalog} (opens : Catalog.open? collection store = some catalog) :
    Holds collection data tree catalog := by
  obtain ⟨octets, found, read⟩ := stored.file
  have made := stored.folder tree (.refl tree)
  rw [Holds, openCatalog, on_bind, on_makeFolder, made]
  simp only [on_bind, on_settle, Except.mapError, on_read, found]
  rw [if_neg (show ¬ absent (.ok octets) = true from Bool.false_ne_true), on_bind, on_settle]
  simp only [Except.mapError, read, opens]
  rfl

theorem openCatalog_ok {opened : FileTree} {earlier : Catalog}
    (opens : on tree (openCatalog FileTree.files collection data) = (.ok earlier, opened)) :
    Stored opened data earlier.store ∧ Catalog.open? collection earlier.store = some earlier := by
  rw [openCatalog, on_bind, on_makeFolder] at opens
  rcases make : tree.makeFolder (catalogFolder data) with ⟨made, fault | done⟩
  · simp [make, on_bind, on_settle, Except.mapError] at opens
  · obtain ⟨_, again⟩ := FileTree.makeFolder_again make
    simp only [make, on_bind, on_settle, Except.mapError, on_read] at opens
    split at opens
    · -- Nothing was there, so an empty store was written.
      cases written : made.write (catalogFile data)
          (Text.toOctets (Archive.write (Catalog.create collection).store)) with
      | error fault => simp only [on_bind, on_save, written, reduceCtorEq, Prod.mk.injEq,
          false_and] at opens
      | ok after =>
        simp only [on_bind, on_save, written, on_pure] at opens
        cases opens
        exact ⟨stored_of_archived again (FileTree.write_grows written)
          (FileTree.read_write written) (Store.lasting_empty collection.columns),
          Catalog.open?_eq_some.mpr ⟨fun _ column => column, rfl⟩⟩
    · rw [on_bind, on_settle] at opens
      cases found : made.read (catalogFile data) with
      | error fault => simp [found, Except.mapError] at opens
      | ok octets =>
        simp only [found, Except.mapError] at opens
        split at opens
        · cases opens
        · rename_i store read
          split at opens
          · cases opens
          · rename_i catalog opened
            cases opens
            obtain ⟨_, rfl⟩ := Catalog.open?_eq_some.mp opened
            exact ⟨⟨again, octets, found, read⟩, opened⟩

def documents (collection : Collection) (tree : FileTree) (paths : List Text) : List Entry :=
  paths.flatMap fun path => Intake.entries collection (tree.read path)

theorem documents_append (collection : Collection) (tree : FileTree) (paths others : List Text) :
    documents collection tree (paths ++ others) =
      documents collection tree paths ++ documents collection tree others :=
  List.flatMap_append

def cardsIn (collection : Collection) (tree : FileTree) (paths : List Text) : List Card :=
  Session.cardsOf collection (documents collection tree paths)

theorem entries_archive (collection : Collection) (store : Store) :
    Intake.entries collection (.ok (Text.toOctets (Archive.write store))) = [] := by
  have none : Intake.ofLine? (Archive.write store) = none := by
    rw [Intake.ofLine?, Archive.write, Json.read?_compact (Archive.plain_store store)]
    exact Archive.ofJson?_store store
  rw [Intake.entries_toOctets collection (Archive.solid_write store), Intake.accepted?, none]
  split <;> rfl

theorem length_cardsIn (collection : Collection) (tree : FileTree) (paths : List Text) :
    (cardsIn collection tree paths).length = (documents collection tree paths).length := by
  have accepted : ∀ entry ∈ documents collection tree paths,
      Session.Accepted collection entry := by
    intro entry member
    obtain ⟨path, _, among⟩ := List.mem_flatMap.mp member
    exact (Intake.accepted_of_entries among).1
  simpa [cardsIn] using congrArg List.length (Session.ids_cardsOf accepted)

theorem lasting_cardsIn (collection : Collection) (tree : FileTree) (paths : List Text) :
    ∀ card ∈ cardsIn collection tree paths, card.Lasting := by
  intro card member
  obtain ⟨entry, inside, made⟩ := List.mem_filterMap.mp member
  obtain ⟨path, _, among⟩ := List.mem_flatMap.mp inside
  cases result : entry.card? collection with
  | error fault => simp [result, Except.toOption] at made
  | ok other =>
    cases (by simpa [result, Except.toOption] using made : other = card)
    exact Intake.lasting_of_entries among result

/-- None of the files is the catalog itself, unless it is as the program wrote it. -/
def Outside (tree : FileTree) (data : Text) (store : Store) (paths : List Text) : Prop :=
  ∀ path ∈ paths, tree.locate path = tree.locate (catalogFile data) → Archived tree data store

theorem entries_after (collection : Collection) {after : FileTree} {paths : List Text}
    {old new : Store} (outside : Outside tree data old paths)
    (seen : ∀ path, after.read path =
      if tree.locate path = tree.locate (catalogFile data) then
        .ok (Text.toOctets (Archive.write new))
      else tree.read path) {path : Text} (listed : path ∈ paths) :
    Intake.entries collection (after.read path) = Intake.entries collection (tree.read path) ∧
      (Intake.Faulty (after.read path) ↔ Intake.Faulty (tree.read path)) := by
  rw [seen]
  split
  · rename_i same
    have archive := outside path listed same
    rw [Archived, ← FileTree.read_congr same] at archive
    rw [archive, entries_archive, entries_archive]
    exact ⟨rfl, iff_of_false (Intake.sound_toOctets (Archive.solid_write new))
      (Intake.sound_toOctets (Archive.solid_write old))⟩
  · exact ⟨rfl, Iff.rfl⟩

section Opened

variable {opened : FileTree} {earlier : Catalog}
  (opens : on tree (openCatalog FileTree.files collection data) = (.ok earlier, opened))
include opens

theorem holds_commit {after : FileTree} {added : List Card} (grows : opened.Grows after)
    (archived : Archived after data (earlier.store.commit added))
    (lasting : ∀ card ∈ added, card.Lasting) :
    Holds collection data after ⟨collection, earlier.store.commit added, []⟩ := by
  obtain ⟨stored, can⟩ := openCatalog_ok opens
  obtain ⟨octets, _, read⟩ := stored.file
  obtain ⟨text, _, read⟩ := Option.bind_eq_some_iff.mp read
  have again := stored_of_archived stored.folder grows archived
    ((Archive.lasting_of_read read).commit lasting)
  have covered := (Catalog.open?_eq_some.mp can).1
  rw [← Store.columns_commit earlier.store added] at covered
  exact holds_of_stored again (Catalog.open?_eq_some.mpr ⟨covered, rfl⟩)

theorem takeIn_faulty {paths : List Text}
    (faulty : ∃ path ∈ paths, Intake.Faulty (opened.read path)) :
    ∃ fault, on tree (takeIn FileTree.files collection data paths) =
      (.error (.intake fault), opened) := by
  obtain ⟨path, listed, broken⟩ := faulty
  obtain ⟨fault, stops⟩ := @Intake.run_error earlier
    (paths.map fun path => (path, opened.read path))
    ⟨(path, opened.read path), List.mem_map.mpr ⟨path, listed, rfl⟩, broken⟩
  refine ⟨fault, ?_⟩
  rw [takeIn, on_bind, opens]
  simp only [on_bind, on_contents, on_settle, stops, Except.mapError]

theorem intake_sound {paths : List Text}
    (sound : ∀ path ∈ paths, ¬ Intake.Faulty (opened.read path)) : ∃ taken,
      Intake.run earlier (paths.map fun path => (path, opened.read path)) = .ok taken ∧
      taken.catalog.store = earlier.store.commit (cardsIn collection opened paths) ∧
      taken.added = (documents collection opened paths).length := by
  obtain ⟨_, shape⟩ := Catalog.open?_eq_some.mp (openCatalog_ok opens).2
  have own : earlier.collection = collection := congrArg Catalog.collection shape
  have fresh : earlier.pending = [] := congrArg Catalog.pending shape
  have ran := @Intake.run_ok earlier (paths.map fun path => (path, opened.read path)) (by
    intro given member
    obtain ⟨path, listed, rfl⟩ := List.mem_map.mp member
    exact sound path listed)
  rw [List.flatMap_map, own, ← documents] at ran
  refine ⟨_, ran, ?_, Nat.zero_add _⟩
  simp only [Intake.took, Intake.commit, Catalog.commit, fresh, own, List.nil_append, cardsIn]

theorem takeIn_sound {paths : List Text}
    (sound : ∀ path ∈ paths, ¬ Intake.Faulty (opened.read path)) : ∃ after,
      on tree (takeIn FileTree.files collection data paths) =
        (.ok (documents collection opened paths).length, after) ∧
      Holds collection data after
        ⟨collection, earlier.store.commit (cardsIn collection opened paths), []⟩ ∧
      ∀ path, after.read path =
        if opened.locate path = opened.locate (catalogFile data) then
          .ok (Text.toOctets (Archive.write
            (earlier.store.commit (cardsIn collection opened paths))))
        else opened.read path := by
  obtain ⟨_, found, _⟩ := (openCatalog_ok opens).1.file
  obtain ⟨taken, ran, store, count⟩ := intake_sound opens sound
  obtain ⟨after, written, here, apart⟩ := FileTree.write_again found
    (Text.toOctets (Archive.write (earlier.store.commit (cardsIn collection opened paths))))
  refine ⟨after, ?_, holds_commit opens (FileTree.write_grows written)
    (FileTree.read_write written) (lasting_cardsIn collection opened paths), fun path => ?_⟩
  · rw [takeIn, on_bind, opens]
    simp only [on_bind, on_contents, on_settle, ran, Except.mapError, on_save, store, written,
      on_pure, count]
  · split
    · rename_i same
      exact here path same
    · rename_i differ
      exact apart path differ

theorem takeIn_append {paths others : List Text} {n : Nat} {whole : FileTree}
    (outside : Outside opened data earlier.store others)
    (took : on tree (takeIn FileTree.files collection data (paths ++ others)) = (.ok n, whole)) :
    ∃ first between second parts one two,
      on tree (takeIn FileTree.files collection data paths) = (.ok first, between) ∧
      on between (takeIn FileTree.files collection data others) = (.ok second, parts) ∧
      first + second = n ∧
      Holds collection data whole one ∧ Holds collection data parts two ∧
      (∀ id, one.get? id = two.get? id) ∧ one.counts = two.counts := by
  have sound : ∀ path ∈ paths ++ others, ¬ Intake.Faulty (opened.read path) := by
    intro path listed faulty
    obtain ⟨fault, stops⟩ := takeIn_faulty opens ⟨path, listed, faulty⟩
    rw [stops] at took
    cases took
  obtain ⟨_, ran, one, _⟩ := takeIn_sound opens sound
  cases took.symm.trans ran
  obtain ⟨between, ranFirst, middle, seen⟩ := takeIn_sound opens fun path listed =>
    sound path (List.mem_append_left others listed)
  -- The second part finds in its files what they had before the first.
  have again (path : Text) (listed : path ∈ others) := entries_after collection outside seen listed
  have given : documents collection between others = documents collection opened others :=
    List.flatMap_congr fun path listed => (again path listed).1
  obtain ⟨parts, ranSecond, two, _⟩ := takeIn_sound middle fun path listed =>
    mt (again path listed).2.mp (sound path (List.mem_append_right paths listed))
  have cards : (earlier.store.commit (cardsIn collection opened (paths ++ others))).cards =
      ((earlier.store.commit (cardsIn collection opened paths)).commit
        (cardsIn collection between others)).cards := by
    rw [cardsIn, cardsIn, cardsIn, given, documents_append, Session.cardsOf_append,
      Store.cards_commit_put, Store.cards_commit_put, Store.cards_commit_put, List.foldl_append]
  refine ⟨_, between, _, parts, _, _, ranFirst, ranSecond, ?_, one, two, ?_, ?_⟩
  · rw [given, documents_append, List.length_append]
  · exact Catalog.get?_of_cards rfl cards
  · exact Catalog.counts_of_cards rfl cards

/-- Files are taken in as a whole or not at all. There is a fault if and only if one of
them is at fault, and then the folder is left as it was opened. Otherwise the entries
are counted and their cards, one each, are put into what it held, and it makes no
difference to take the files in part by part. -/
theorem takeIn_all_or_nothing (paths : List Text) :
    let outcome := on tree (takeIn FileTree.files collection data paths)
    ((∃ fault, outcome.1 = .error fault) ↔ ∃ path ∈ paths, Intake.Faulty (opened.read path)) ∧
      (∀ fault, outcome.1 = .error fault →
        outcome.2 = opened ∧ Holds collection data opened earlier) ∧
      (∀ n, outcome.1 = .ok n →
        n = (documents collection opened paths).length ∧
        n = (cardsIn collection opened paths).length ∧
        ∃ later, Holds collection data outcome.2 later ∧ later.store.cards =
          (cardsIn collection opened paths).foldl Latest.put earlier.store.cards) ∧
      ∀ {others : List Text} {n : Nat} {whole : FileTree},
        Outside opened data earlier.store others →
        on tree (takeIn FileTree.files collection data (paths ++ others)) = (.ok n, whole) →
        ∃ first second parts one two, outcome.1 = .ok first ∧
          on outcome.2 (takeIn FileTree.files collection data others) = (.ok second, parts) ∧
          first + second = n ∧
          Holds collection data whole one ∧ Holds collection data parts two ∧
          (∀ id, one.get? id = two.get? id) ∧ one.counts = two.counts := by
  intro outcome
  by_cases faulty : ∃ path ∈ paths, Intake.Faulty (opened.read path)
  · obtain ⟨fault, stops⟩ := takeIn_faulty opens faulty
    obtain ⟨stored, can⟩ := openCatalog_ok opens
    rw [show outcome = _ from stops]
    refine ⟨iff_of_true ⟨_, rfl⟩ faulty, fun _ _ => ⟨rfl, holds_of_stored stored can⟩,
      fun _ added => (nomatch added), fun outside took => ?_⟩
    obtain ⟨_, _, _, _, _, _, ran, _⟩ := takeIn_append opens outside took
    cases stops.symm.trans ran
  · obtain ⟨after, ran, later, _⟩ := takeIn_sound opens fun path listed broken =>
      faulty ⟨path, listed, broken⟩
    rw [show outcome = _ from ran]
    refine ⟨iff_of_false (by simp) faulty, fun _ stopped => (nomatch stopped), fun n added => ?_,
      fun outside took => ?_⟩
    · cases added
      exact ⟨rfl, (length_cardsIn collection opened paths).symm, _, later,
        Store.cards_commit_put _ _⟩
    · obtain ⟨first, _, second, parts, one, two, ranFirst, rest⟩ := takeIn_append opens outside took
      cases ran.symm.trans ranFirst
      exact ⟨_, second, parts, one, two, rfl, rest⟩

end Opened

-- Two files with one letter each, which the folder has from before.
open Session (letters letter)

def shelf : Store :=
  (Store.empty ["naam".toList]).commit (Session.cardsOf ⟨[letters]⟩ [letter "1" "kees"])

def sentByJan : Text := "[\"1\",\"brief\",null,\x7b\"naam\":\"jan\"\x7d]".toList

def sentByPiet : Text := "[\"1\",\"brief\",null,\x7b\"naam\":\"piet\"\x7d]".toList

def desk : FileTree := .folder
  [("data".toList, .folder [("index".toList, .folder [("v1".toList, .folder
      [("catalog.json".toList, .file (Text.toOctets (Archive.write shelf)))])])]),
    ("a".toList, .file (Text.toOctets sentByJan)),
    ("b".toList, .file (Text.toOctets sentByPiet))]

theorem holds_desk : Holds ⟨[letters]⟩ "/data".toList desk ⟨⟨[letters]⟩, shelf, []⟩ := by
  have lasting : shelf.Lasting := (Store.lasting_empty _).commit (by
    intro card member year given
    rw [List.mem_singleton.mp member] at given
    cases given)
  have made : desk.makeFolder (catalogFolder "/data".toList) = (desk, .ok ()) := rfl
  have again := (FileTree.makeFolder_again made).2
  exact holds_of_stored (stored_of_archived again (.refl desk) rfl lasting) rfl

def sent (name : String) : Text :=
  (Archive.card ⟨"1".toList, letters.name, none, (letter "1" name).fields⟩).compact

theorem entries_sent (name : String) :
    Intake.entries ⟨[letters]⟩ (.ok (Text.toOctets (sent name))) = [letter "1" name] := by
  have named : Text.trim "1".toList ≠ [] := by decide
  exact Intake.entries_card (fun _ given => nomatch given)
    ⟨⟨letters, List.mem_singleton_self _, rfl⟩, named⟩

theorem documents_desk : documents ⟨[letters]⟩ desk ["/a".toList, "/b".toList] =
    [letter "1" "jan", letter "1" "piet"] := by
  have jan : desk.read "/a".toList = .ok (Text.toOctets sentByJan) := rfl
  have piet : desk.read "/b".toList = .ok (Text.toOctets sentByPiet) := rfl
  rw [show sentByJan = sent "jan" by decide +kernel] at jan
  rw [show sentByPiet = sent "piet" by decide +kernel] at piet
  rw [documents, List.flatMap_cons, List.flatMap_cons, jan, piet, entries_sent, entries_sent]
  rfl

theorem takeIn_all_or_nothing_letters :
    let take (tree : FileTree) (paths : List Text) :=
      on tree (takeIn FileTree.files ⟨[letters]⟩ "/data".toList paths)
    Holds ⟨[letters]⟩ "/data".toList desk ⟨⟨[letters]⟩, shelf, []⟩ ∧
      (∃ fault, (take desk ["/a".toList, "/c".toList]).1 = .error fault) ∧
      (take desk ["/a".toList, "/c".toList]).2 = desk ∧
      ∃ whole later first second parts,
        take desk ["/a".toList, "/b".toList] = (.ok 2, whole) ∧
        Holds ⟨[letters]⟩ "/data".toList whole later ∧ later.counts.total = 1 ∧
        (take desk ["/a".toList]).1 = .ok first ∧
        take (take desk ["/a".toList]).2 ["/b".toList] = (.ok second, parts) ∧
        first + second = 2 := by
  intro take
  obtain ⟨faults, kept, _⟩ := takeIn_all_or_nothing holds_desk ["/a".toList, "/c".toList]
  obtain ⟨fault, stops⟩ := faults.mpr ⟨"/c".toList, by simp, trivial⟩
  obtain ⟨sound, _, added, _⟩ := takeIn_all_or_nothing holds_desk ["/a".toList, "/b".toList]
  have none : ¬ ∃ path ∈ ["/a".toList, "/b".toList], Intake.Faulty (desk.read path) := by
    simp only [List.mem_cons, List.not_mem_nil, or_false, exists_eq_or_imp, exists_eq_left, not_or]
    exact ⟨Intake.sound_toOctets (by decide +kernel), Intake.sound_toOctets (by decide +kernel)⟩
  rcases took : take desk ["/a".toList, "/b".toList] with ⟨fault | n, whole⟩
  · exact absurd (sound.mp ⟨fault, congrArg Prod.fst took⟩) none
  · obtain ⟨count, _, later, holds, cards⟩ := added n (congrArg Prod.fst took)
    rw [documents_desk] at count
    rw [cardsIn, documents_desk] at cards
    rw [show on desk (takeIn FileTree.files _ _ _) = _ from took] at holds
    have total : later.counts.total = 1 := (congrArg List.length cards).trans (by decide +kernel)
    obtain ⟨_, _, _, parted⟩ := takeIn_all_or_nothing holds_desk ["/a".toList]
    obtain ⟨first, second, parts, _, _, ranFirst, ranSecond, sum, _⟩ :=
      parted (fun _ _ _ => rfl) took
    cases count
    exact ⟨holds_desk, ⟨fault, stops⟩, (kept fault stops).1, whole, later, first, second, parts,
      rfl, holds, total, ranFirst, ranSecond, sum⟩

end Command

end CardCatalog
