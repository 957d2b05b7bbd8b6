import CardCatalog.Command.FileTree
import Mathlib.Tactic.ByContra

/-!
What is seen of a tree of files: at every place a file, a folder or nothing. All
operations go by that alone. Writing a file changes what is seen at its own place
and nowhere else; making folders only adds to what is there, and once they are made
it finds them.
-/

namespace CardCatalog.FileTree

inductive Sight where
  | file (octets : ByteArray)
  | folder

def Sight.isFolder : Sight → Bool
  | file _ => false
  | folder => true

def sight : FileTree → Sight
  | .file octets => .file octets
  | .folder _ => .folder

def look (tree : FileTree) (place : List Text) : Option Sight := (tree.node? place).map sight

def kind (tree : FileTree) (place : List Text) : Option Bool := (tree.look place).map Sight.isFolder

theorem look_nil (tree : FileTree) : tree.look [] = some tree.sight := rfl

theorem look_cons (tree : FileTree) (name : Text) (rest : List Text) :
    tree.look (name :: rest) = (tree.entry? name).bind (look · rest) := by
  rw [look, node?, Option.map_bind]
  rfl

/-- A folder of which nothing is seen but itself, or a file. -/
def Bare (leaf : FileTree) : Prop := ∀ name rest, leaf.look (name :: rest) = none

theorem bare_file (octets : ByteArray) : Bare (.file octets) := fun _ _ => rfl

theorem bare_empty : Bare empty := fun _ _ => rfl

theorem find_setEntry {tree : FileTree} (folder : tree.sight = .folder) (name other : Text)
    (node : FileTree) : entry? other (tree.setEntry name node) =
      if other = name then some node else tree.entry? other := by
  cases tree with
  | file octets => cases folder
  | folder entries =>
    by_cases same : other = name
    · simp [setEntry, entry?, same]
    · have kept : (entries.filter (·.1 != name)).find? (·.1 == other) =
          entries.find? (·.1 == other) := by
        rw [List.find?_filter]
        congr 1
        funext entry
        by_cases hit : entry.1 = other
        · simp [hit, same]
        · simp [hit]
      simp [setEntry, entry?, same, Ne.symm same, kept]

theorem sight_setEntry (tree : FileTree) (name : Text) (node : FileTree) :
    (tree.setEntry name node).sight = tree.sight := by
  cases tree <;> rfl

theorem look_above {tree : FileTree} {place rest : List Text} {name : Text} {seen : Sight}
    (found : tree.look (place ++ name :: rest) = some seen) : tree.look place = some .folder := by
  induction place generalizing tree with
  | nil =>
    rw [List.nil_append, look_cons] at found
    cases tree with
    | file octets => cases found
    | folder entries => rfl
  | cons first more ih =>
    rw [List.cons_append, look_cons] at found
    obtain ⟨child, there, found⟩ := Option.bind_eq_some_iff.mp found
    rw [look_cons, there]
    exact ih found

theorem look_put {tree leaf : FileTree} {parent : List Text} {name : Text} (bare : leaf.Bare)
    (below : tree.look parent = some .folder) (vacant : tree.look (parent ++ [name]) ≠ some .folder)
    (place : List Text) : (tree.put (parent ++ [name]) leaf).look place =
      if place = parent ++ [name] then some leaf.sight else tree.look place := by
  -- on the way down only the entry that leads to the parent changes
  induction parent generalizing tree place with
  | nil =>
    have folder : tree.sight = .folder := Option.some.inj below
    have beyond (next : Text) (more : List Text) : tree.look (name :: next :: more) = none := by
      by_contra there
      obtain ⟨seen, found⟩ := Option.ne_none_iff_exists'.mp there
      exact vacant (@look_above tree [name] more next seen found)
    cases place with
    | nil => simp [put, look_nil, sight_setEntry]
    | cons first rest =>
      rw [List.nil_append, put, look_cons, look_cons, find_setEntry folder]
      by_cases same : first = name
      · subst same
        cases rest with
        | nil => simp [put, look_nil]
        | cons next more =>
          have gone := beyond next more
          rw [look_cons] at gone
          simp [put, bare next more, gone]
      · simp [same]
  | cons first more ih =>
    rw [look_cons] at below
    obtain ⟨child, found, under⟩ := Option.bind_eq_some_iff.mp below
    have folder : tree.sight = .folder := by
      cases tree with
      | file octets => cases found
      | folder entries => rfl
    rw [List.cons_append, look_cons, found, Option.bind_some] at vacant
    cases place with
    | nil => simp [put, look_nil, sight_setEntry]
    | cons other rest =>
      rw [List.cons_append, put, look_cons, look_cons, find_setEntry folder, found]
      by_cases same : other = first
      · subst same
        simp [ih under vacant, found]
      · simp [same]

/-! Walking a path -/

theorem kind_eq_folder {tree : FileTree} {place : List Text} :
    tree.kind place = some true ↔ tree.look place = some .folder := by
  rw [kind]
  constructor
  · intro seen
    obtain ⟨sight, found, folder⟩ := Option.map_eq_some_iff.mp seen
    cases sight with
    | file octets => cases folder
    | folder => exact found
  · intro seen
    rw [seen]
    rfl

theorem step_congr {one other : FileTree} {place : List Text}
    (same : one.kind place = other.kind place) (name : Text) :
    one.step name place = other.step name place := by
  unfold step
  unfold kind look at same
  cases first : one.node? place with
  | none =>
    cases second : other.node? place with
    | none => rfl
    | some node => simp [first, second] at same
  | some node =>
    cases second : other.node? place with
    | none => simp [first, second] at same
    | some node' => cases node <;> cases node' <;> simp_all [sight, Sight.isFolder]

theorem step_ok {tree : FileTree} {name : Text} {place next : List Text}
    (stepped : tree.step name place = .ok next) :
    tree.look place = some .folder ∧ (tree.look next = some .folder ∨ next = place ++ [name]) := by
  unfold step at stepped
  cases there : tree.node? place with
  | none => simp [there] at stepped
  | some node =>
    cases node with
    | file octets => simp [there] at stepped
    | folder entries =>
      have here : tree.look place = some .folder := by rw [look, there]; rfl
      refine ⟨here, ?_⟩
      simp only [there] at stepped
      split at stepped
      · cases stepped
        exact .inl here
      · split at stepped
        · -- Two dots lead up, and what is above anything is a folder.
          cases stepped
          rcases List.eq_nil_or_concat place with rfl | ⟨up, last, rfl⟩
          · exact .inl here
          · rw [List.concat_eq_append] at here ⊢
            rw [List.dropLast_concat]
            exact .inl (look_above here)
        · split at stepped
          · cases stepped
          · cases stepped
            exact .inr rfl

theorem steps_congr {one other : FileTree} (same : ∀ place, one.kind place = other.kind place)
    (place names : List Text) : one.steps place names = other.steps place names := by
  induction names generalizing place with
  | nil => rfl
  | cons name rest ih => simp only [steps, step_congr (same place), ih]

theorem locate_congr {one other : FileTree} (same : ∀ place, one.kind place = other.kind place)
    (path : Text) : one.locate path = other.locate path := by
  simp only [locate, steps_congr same]

theorem steps_ok {tree : FileTree} {place names goal : List Text}
    (walked : tree.steps place names = .ok goal) (some : names ≠ []) :
    tree.look goal = Option.some .folder ∨
      ∃ parent name, goal = parent ++ [name] ∧ tree.look parent = Option.some .folder := by
  induction names generalizing place with
  | nil => exact absurd rfl some
  | cons name rest ih =>
    rw [steps] at walked
    cases stepped : tree.step name place with
    | error fault => simp [stepped] at walked
    | ok next =>
      simp only [stepped] at walked
      cases rest with
      | nil =>
        cases walked
        obtain ⟨here, folder | named⟩ := step_ok stepped
        · exact .inl folder
        · exact .inr ⟨place, name, named, here⟩
      | cons other more => exact ih walked (by simp)

theorem locate_ok {tree : FileTree} {path : Text} {goal : List Text}
    (located : tree.locate path = .ok goal) : tree.look goal = some .folder ∨
      ∃ parent name, goal = parent ++ [name] ∧ tree.look parent = some .folder := by
  unfold locate names at located
  split at located
  · cases located
  · rename_i parts split
    split at split
    · cases split
    · split at split
      · cases split
      · cases split
        split at located
        · cases located
        · exact steps_ok located (Text.splitOn_ne_nil _ _)

/-! Reading and writing -/

theorem read_eq (tree : FileTree) (path : Text) : tree.read path =
    match tree.locate path with
    | .error fault => .error fault
    | .ok place => match tree.look place with
      | none => .error .missing
      | some .folder => .error .isFolder
      | some (.file octets) => .ok octets := by
  unfold read look
  cases tree.locate path with
  | error fault => rfl
  | ok place =>
    cases there : tree.node? place with
    | none => simp [there]
    | some node => cases node <;> simp [there, sight]

theorem write_ok {tree after : FileTree} {path : Text} {octets : ByteArray}
    (written : tree.write path octets = .ok after) : ∃ place, tree.locate path = .ok place ∧
      tree.look place ≠ some .folder ∧
      ∀ other, after.look other =
        if other = place then some (.file octets) else tree.look other := by
  unfold write at written
  cases located : tree.locate path with
  | error fault => simp [located] at written
  | ok place =>
    have vacant : tree.look place ≠ some .folder := by
      intro folder
      unfold look at folder
      cases there : tree.node? place with
      | none => simp [there] at folder
      | some node =>
        cases node with
        | file octets => simp [there, sight] at folder
        | folder entries => simp [located, there] at written
    refine ⟨place, rfl, vacant, ?_⟩
    rcases locate_ok located with folder | ⟨parent, name, rfl, below⟩
    · exact absurd folder vacant
    · have made : after = tree.put (parent ++ [name]) (.file octets) := by
        simp only [located] at written
        split at written
        · cases written
        · cases written
          rfl
      rw [made]
      exact look_put (bare_file octets) below vacant

/-! Trees that only grow -/

/-- What was there is still there, though a file may hold something else. -/
def Grows (before after : FileTree) : Prop :=
  ∀ place kind, before.kind place = some kind → after.kind place = some kind

theorem Grows.refl (tree : FileTree) : tree.Grows tree := fun _ _ seen => seen

theorem Grows.trans {first second third : FileTree} (one : first.Grows second)
    (two : second.Grows third) : first.Grows third :=
  fun place kind seen => two place kind (one place kind seen)

section Grown

variable {before after : FileTree} (grows : before.Grows after)
include grows

theorem step_grows {name : Text} {place next : List Text}
    (stepped : before.step name place = .ok next) : after.step name place = .ok next := by
  have here := kind_eq_folder.mpr (step_ok stepped).1
  rw [← step_congr (here.trans (grows place true here).symm)]
  exact stepped

theorem steps_grows {names place goal : List Text} (walked : before.steps place names = .ok goal) :
    after.steps place names = .ok goal := by
  induction names generalizing place with
  | nil => exact walked
  | cons name rest ih =>
    rw [steps] at walked ⊢
    cases stepped : before.step name place with
    | error fault => simp [stepped] at walked
    | ok next =>
      simp only [stepped] at walked
      simp only [step_grows grows stepped]
      exact ih walked

theorem locate_grows {path : Text} {goal : List Text} (located : before.locate path = .ok goal) :
    after.locate path = .ok goal := by
  unfold locate at located ⊢
  cases parts : names path with
  | error fault => simp [parts] at located
  | ok names =>
    simp only [parts] at located ⊢
    split at located
    · cases located
    · rename_i filled
      rw [if_neg filled]
      exact steps_grows grows located

end Grown

theorem write_grows {tree after : FileTree} {path : Text} {octets : ByteArray}
    (written : tree.write path octets = .ok after) : tree.Grows after := by
  obtain ⟨place, _, vacant, seen⟩ := write_ok written
  intro other kind there
  rw [FileTree.kind, seen]
  split
  · rename_i same
    subst same
    obtain ⟨sight, found, rfl⟩ := Option.map_eq_some_iff.mp there
    cases sight with
    | file octets => rfl
    | folder => exact absurd found vacant
  · exact there

theorem read_write {tree after : FileTree} {path : Text} {octets : ByteArray}
    (written : tree.write path octets = .ok after) : after.read path = .ok octets := by
  obtain ⟨place, located, _, seen⟩ := write_ok written
  rw [read_eq, locate_grows (write_grows written) located]
  simp [seen]

theorem read_ok {tree : FileTree} {path : Text} {octets : ByteArray}
    (found : tree.read path = .ok octets) : ∃ place,
      tree.locate path = .ok place ∧ tree.look place = some (.file octets) := by
  rw [read_eq] at found
  cases located : tree.locate path with
  | error fault => simp [located] at found
  | ok place =>
    refine ⟨place, rfl, ?_⟩
    simp only [located] at found
    split at found
    · cases found
    · cases found
    · rename_i there
      cases found
      exact there

theorem read_congr {tree : FileTree} {one other : Text}
    (same : tree.locate one = tree.locate other) :
    tree.read one = tree.read other := by
  rw [read_eq, read_eq, same]

theorem write_again {tree : FileTree} {path : Text} {old : ByteArray}
    (found : tree.read path = .ok old) (new : ByteArray) : ∃ after,
      tree.write path new = .ok after ∧
        (∀ other, tree.locate other = tree.locate path → after.read other = .ok new) ∧
        ∀ other, tree.locate other ≠ tree.locate path → after.read other = tree.read other := by
  obtain ⟨place, located, there⟩ := read_ok found
  have writes : ∃ after, tree.write path new = .ok after := by
    unfold write
    rw [located]
    unfold look at there
    cases here : tree.node? place with
    | none => simp [here] at there
    | some node =>
      cases node with
      | file octets => simp [here]
      | folder entries => simp [here, sight] at there
  obtain ⟨after, written⟩ := writes
  obtain ⟨goal, same, _, seen⟩ := write_ok written
  cases located.symm.trans same
  have kinds (q : List Text) : after.kind q = tree.kind q := by
    rw [kind, seen]
    split
    · rename_i here
      rw [here, kind, there]
      rfl
    · rfl
  -- a file stays a file, so every path leads where it led
  refine ⟨after, written, fun other meets => ?_, fun other apart => ?_⟩
  · rw [read_eq, locate_congr kinds, meets, located]
    simp [seen]
  · rw [read_eq, read_eq, locate_congr kinds]
    cases leads : tree.locate other with
    | error fault => rfl
    | ok goal =>
      have elsewhere : goal ≠ place := fun same => apart (by rw [leads, located, same])
      simp [seen, elsewhere]

/-! Making folders -/

def Clear (tree : FileTree) (place : List Text) : List Text → Prop
  | [] => tree.kind place = some true
  | name :: rest => ∃ next, tree.step name place = .ok next ∧
      (tree.kind next).isSome ∧ Clear tree next rest

theorem Clear.grows {before after : FileTree} (grows : before.Grows after) {names place : List Text}
    (clear : before.Clear place names) : after.Clear place names := by
  induction names generalizing place with
  | nil => exact grows place true clear
  | cons name rest ih =>
    obtain ⟨next, stepped, there, further⟩ := clear
    obtain ⟨kind, seen⟩ := Option.isSome_iff_exists.mp there
    exact ⟨next, step_grows grows stepped, by rw [grows next kind seen]; rfl, ih further⟩

theorem makeFolders_clear {tree : FileTree} {names place : List Text}
    (clear : tree.Clear place names) : tree.makeFolders place names = (tree, .ok ()) := by
  induction names generalizing place with
  | nil =>
    have here := kind_eq_folder.mp clear
    unfold makeFolders
    split
    · rename_i octets node
      simp [look, node, sight] at here
    · rfl
  | cons name rest ih =>
    obtain ⟨next, stepped, there, further⟩ := clear
    rw [makeFolders]
    simp only [stepped]
    split
    · rename_i none
      simp [kind, look, none] at there
    · exact ih further

theorem clear_makeFolders {tree after : FileTree} {names place : List Text}
    (there : (tree.kind place).isSome) (made : tree.makeFolders place names = (after, .ok ())) :
    tree.Grows after ∧ after.Clear place names := by
  induction names generalizing tree place with
  | nil =>
    unfold makeFolders at made
    split at made
    · cases made
    · rename_i other
      cases made
      refine ⟨.refl after, ?_⟩
      cases here : after.node? place with
      | none => simp [kind, look, here] at there
      | some node =>
        cases node with
        | file octets => exact absurd here (other octets)
        | folder entries => simp [Clear, kind, look, here, sight, Sight.isFolder]
  | cons name rest ih =>
    rw [makeFolders] at made
    cases stepped : tree.step name place with
    | error fault => simp [stepped] at made
    | ok next =>
      simp only [stepped] at made
      -- from here on a folder that was just made is like one that was there
      have goes {middle : FileTree} (first : tree.Grows middle) (seen : (middle.kind next).isSome)
          (made : middle.makeFolders next rest = (after, .ok ())) :
          tree.Grows after ∧ after.Clear place (name :: rest) := by
        obtain ⟨grows, clear⟩ := ih seen made
        obtain ⟨kind, found⟩ := Option.isSome_iff_exists.mp seen
        exact ⟨first.trans grows, next, step_grows (first.trans grows) stepped,
          by rw [grows next kind found]; rfl, clear⟩
      cases here : tree.node? next with
      | some node =>
        simp only [here] at made
        exact goes (.refl tree) (by simp [kind, look, here]) made
      | none =>
        simp only [here] at made
        have vacant : tree.look next = none := by rw [look, here]; rfl
        obtain ⟨below, folder | rfl⟩ := step_ok stepped
        · rw [vacant] at folder
          cases folder
        · have seen := look_put bare_empty below (by rw [vacant]; simp)
          refine goes (fun other kind found => ?_) (by simp [kind, seen]) made
          rw [FileTree.kind, seen]
          split
          · rename_i same
            rw [same, FileTree.kind, vacant] at found
            cases found
          · exact found

theorem makeFolder_again {tree after : FileTree} {path : Text}
    (made : tree.makeFolder path = (after, .ok ())) : tree.Grows after ∧
      ∀ later, after.Grows later → later.makeFolder path = (later, .ok ()) := by
  unfold makeFolder at made ⊢
  cases parts : names path with
  | error fault => simp [parts] at made
  | ok names =>
    simp only [parts] at made ⊢
    obtain ⟨grows, clear⟩ := clear_makeFolders (by simp [kind, look_nil]) made
    exact ⟨grows, fun later more => makeFolders_clear (clear.grows more)⟩

end CardCatalog.FileTree
