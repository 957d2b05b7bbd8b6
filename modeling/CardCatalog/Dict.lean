import CardCatalog.Text.Basic

/-!
Finite maps from texts and finite sets of texts, held in ascending order of code points.
The order is part of the type, so two maps with the same entries and two sets with the
same members are equal. They are the program's ordered maps and sets.
-/

namespace CardCatalog

structure Dict (α : Type) where
  entries : List (Text × α)
  ascending : entries.Pairwise (·.1 < ·.1)

structure WordSet where
  words : List Text
  ascending : words.Pairwise (· < ·)
  deriving DecidableEq

namespace Dict

variable {α β : Type}

def place (key : Text) (value : α) : List (Text × α) → List (Text × α)
  | [] => [(key, value)]
  | (k, v) :: rest =>
    if key < k then (key, value) :: (k, v) :: rest
    else if key = k then (key, value) :: rest
    else (k, v) :: place key value rest

theorem mem_place {key : Text} {value : α} {entries : List (Text × α)} {e : Text × α}
    (member : e ∈ place key value entries) : e = (key, value) ∨ e ∈ entries := by
  induction entries with
  | nil => simpa [place] using member
  | cons head rest ih =>
    obtain ⟨k, v⟩ := head
    unfold place at member
    split at member
    · simpa using member
    · split at member
      · rcases List.mem_cons.mp member with same | old
        · exact Or.inl same
        · exact Or.inr (List.mem_cons_of_mem _ old)
      · rcases List.mem_cons.mp member with same | old
        · exact Or.inr (by simp [same])
        · exact (ih old).imp id (List.mem_cons_of_mem _)

theorem above_of_not_below {a b : Text} (below : ¬ a < b) (differ : a ≠ b) : b < a :=
  List.not_le.mp fun le => differ (List.le_antisymm le (List.not_lt.mp below))

theorem place_ascending (key : Text) (value : α) (entries : List (Text × α))
    (ascending : entries.Pairwise (·.1 < ·.1)) :
    (place key value entries).Pairwise (·.1 < ·.1) := by
  induction entries with
  | nil => simp [place]
  | cons head rest ih =>
    obtain ⟨k, v⟩ := head
    obtain ⟨low, tail⟩ := List.pairwise_cons.mp ascending
    unfold place
    split
    · rename_i below
      refine List.pairwise_cons.mpr ⟨fun e member => ?_, ascending⟩
      rcases List.mem_cons.mp member with same | old
      · exact same ▸ below
      · exact List.lt_trans below (low e old)
    · rename_i below
      split
      · rename_i same
        exact List.pairwise_cons.mpr ⟨fun e member => same ▸ low e member, tail⟩
      · rename_i differ
        refine List.pairwise_cons.mpr ⟨fun e member => ?_, ih tail⟩
        rcases mem_place member with same | old
        · exact same ▸ above_of_not_below below differ
        · exact low e old

def empty : Dict α := ⟨[], .nil⟩

def insert (d : Dict α) (key : Text) (value : α) : Dict α :=
  ⟨place key value d.entries, place_ascending key value d.entries d.ascending⟩

def ofPairs (pairs : List (Text × α)) : Dict α :=
  pairs.foldl (fun d pair => d.insert pair.1 pair.2) empty

def get? (d : Dict α) (key : Text) : Option α :=
  (d.entries.find? (·.1 == key)).map (·.2)

def keys (d : Dict α) : List Text := d.entries.map (·.1)

def has (d : Dict α) (key : Text) : Bool := d.entries.any (·.1 == key)

theorem filterMap_ascending (f : Text → α → Option β) (entries : List (Text × α))
    (ascending : entries.Pairwise (·.1 < ·.1)) :
    (entries.filterMap fun e => (f e.1 e.2).map (e.1, ·)).Pairwise (·.1 < ·.1) := by
  refine List.pairwise_filterMap.mpr (ascending.imp fun below b one c two => ?_)
  obtain ⟨_, _, rfl⟩ := Option.map_eq_some_iff.mp one
  obtain ⟨_, _, rfl⟩ := Option.map_eq_some_iff.mp two
  exact below

def filterMap (f : Text → α → Option β) (d : Dict α) : Dict β :=
  ⟨d.entries.filterMap fun e => (f e.1 e.2).map (e.1, ·),
    filterMap_ascending f d.entries d.ascending⟩

theorem find_place_self (key : Text) (value : α) (entries : List (Text × α)) :
    (place key value entries).find? (·.1 == key) = some (key, value) := by
  induction entries with
  | nil => simp [place]
  | cons head rest ih =>
    obtain ⟨k, v⟩ := head
    unfold place
    split
    · simp
    · split
      · simp
      · rename_i differ
        simp [Ne.symm differ, ih]

theorem find_place_other {key other : Text} (differ : other ≠ key) (value : α)
    (entries : List (Text × α)) :
    (place key value entries).find? (·.1 == other) = entries.find? (·.1 == other) := by
  have apart : (key == other) = false := by simpa using Ne.symm differ
  induction entries with
  | nil => simp [place, apart]
  | cons head rest ih =>
    obtain ⟨k, v⟩ := head
    unfold place
    split
    · simp [List.find?_cons, apart]
    · split
      · rename_i same
        simp [apart, ← same]
      · simp [List.find?_cons, ih]

theorem get?_insert_self (d : Dict α) (key : Text) (value : α) :
    (d.insert key value).get? key = some value := by
  simp [get?, insert, find_place_self]

theorem get?_insert_other (d : Dict α) {key other : Text} (differ : other ≠ key) (value : α) :
    (d.insert key value).get? other = d.get? other := by
  simp [get?, insert, find_place_other differ]

theorem eq_of_entries {d e : Dict α} (same : d.entries = e.entries) : d = e := by
  cases d
  cases e
  simpa using same

end Dict

namespace WordSet

def place (word : Text) : List Text → List Text
  | [] => [word]
  | w :: rest =>
    if word < w then word :: w :: rest
    else if word = w then w :: rest
    else w :: place word rest

theorem mem_place {word x : Text} {ws : List Text} : x ∈ place word ws ↔ x = word ∨ x ∈ ws := by
  induction ws with
  | nil => simp [place]
  | cons w rest ih =>
    unfold place
    split
    · simp
    · split
      · rename_i same
        simp [same]
      · simp [ih, or_left_comm]

theorem place_ascending (word : Text) (ws : List Text) (ascending : ws.Pairwise (· < ·)) :
    (place word ws).Pairwise (· < ·) := by
  induction ws with
  | nil => simp [place]
  | cons w rest ih =>
    obtain ⟨low, tail⟩ := List.pairwise_cons.mp ascending
    unfold place
    split
    · rename_i below
      refine List.pairwise_cons.mpr ⟨fun x member => ?_, ascending⟩
      rcases List.mem_cons.mp member with same | old
      · exact same ▸ below
      · exact List.lt_trans below (low x old)
    · rename_i below
      split
      · exact ascending
      · rename_i differ
        refine List.pairwise_cons.mpr ⟨fun x member => ?_, ih tail⟩
        rcases mem_place.mp member with same | old
        · exact same ▸ Dict.above_of_not_below below differ
        · exact low x old

def empty : WordSet := ⟨[], .nil⟩

def insert (s : WordSet) (word : Text) : WordSet :=
  ⟨place word s.words, place_ascending word s.words s.ascending⟩

def ofList (ws : List Text) : WordSet := ws.foldl insert empty

def has (s : WordSet) (word : Text) : Bool := s.words.contains word

theorem mem_insert {s : WordSet} {word x : Text} :
    x ∈ (s.insert word).words ↔ x = word ∨ x ∈ s.words := mem_place

theorem mem_ofList {ws : List Text} {x : Text} : x ∈ (ofList ws).words ↔ x ∈ ws := by
  suffices general : ∀ s : WordSet, x ∈ (ws.foldl insert s).words ↔ x ∈ s.words ∨ x ∈ ws by
    simpa [ofList, empty] using general empty
  induction ws with
  | nil => simp
  | cons w rest ih =>
    intro s
    simp only [List.foldl_cons, ih, mem_insert, List.mem_cons]
    constructor
    · rintro ((same | old) | later) <;> simp_all
    · rintro (old | same | later) <;> simp_all

theorem eq_of_members {left right : List Text} (first : left.Pairwise (· < ·))
    (second : right.Pairwise (· < ·)) (same : ∀ x, x ∈ left ↔ x ∈ right) : left = right := by
  induction left generalizing right with
  | nil =>
    cases right with
    | nil => rfl
    | cons y _ => exact absurd ((same y).mpr (by simp)) (by simp)
  | cons x rest ih =>
    cases right with
    | nil => exact absurd ((same x).mp (by simp)) (by simp)
    | cons y more =>
      obtain ⟨lowX, tailX⟩ := List.pairwise_cons.mp first
      obtain ⟨lowY, tailY⟩ := List.pairwise_cons.mp second
      have heads : x = y := by
        rcases List.mem_cons.mp ((same x).mp (by simp)) with equal | later
        · exact equal
        · rcases List.mem_cons.mp ((same y).mpr (by simp)) with equal | sooner
          · exact equal.symm
          · exact absurd (List.lt_trans (lowY x later) (lowX y sooner)) (List.lt_irrefl y)
      subst heads
      refine congrArg (x :: ·) (ih tailX tailY fun z => ⟨fun inside => ?_, fun inside => ?_⟩)
      · rcases List.mem_cons.mp ((same z).mp (List.mem_cons_of_mem x inside)) with equal | found
        · exact absurd (equal ▸ lowX z inside) (List.lt_irrefl x)
        · exact found
      · rcases List.mem_cons.mp ((same z).mpr (List.mem_cons_of_mem x inside)) with equal | found
        · exact absurd (equal ▸ lowY z inside) (List.lt_irrefl x)
        · exact found

theorem ext_words {s t : WordSet} (same : ∀ x, x ∈ s.words ↔ x ∈ t.words) : s = t := by
  cases s
  cases t
  simpa using eq_of_members ‹_› ‹_› same

end WordSet

end CardCatalog
