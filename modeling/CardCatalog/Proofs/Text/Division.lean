import CardCatalog.Proofs.Text.Scan

/-!
A text divided at what occurs in it. Read from left to right it is stretches in which
nothing begins, with an occurrence behind each but the last. A text has one division of
this kind, and a scan that finds what occurs hands it back piece by piece.
-/

namespace CardCatalog

/-- What was found in a text, each with the stretch in front of it, and the stretch that
lies behind the last. -/
structure Division where
  found : List (Text × Text)
  rest : Text

/-- Whether something occurs with one text before it and another one behind it. -/
abbrev Occurrence := Text → Text → Text → Prop

namespace Division

variable {α : Type}

def written (write : Text → Text) (d : Division) : Text :=
  (d.found.flatMap fun cut => cut.1 ++ write cut.2) ++ d.rest

def pieces (value : Text → α) (d : Division) : List (Piece α) :=
  (d.found.flatMap fun cut => cut.1.map .loose ++ [.token (value cut.2) cut.2]) ++
    d.rest.map .loose

def push (c : Char) : Division → Division
  | ⟨[], rest⟩ => ⟨[], c :: rest⟩
  | ⟨(s, m) :: found, rest⟩ => ⟨(c :: s, m) :: found, rest⟩

/-- At none of the places in `s` something begins, with `u` before it and `r` behind it. -/
def Free (occurs : Occurrence) (u s r : Text) : Prop :=
  ∀ x y m z, s = x ++ y → y ≠ [] → y ++ r = m ++ z → ¬ occurs (u ++ x) m z

/-- What is found is what occurs first in the text behind what was found before. -/
inductive Leftmost (occurs : Occurrence) : Text → Text → Division → Prop where
  | rest {u s : Text} (free : Free occurs u s []) : Leftmost occurs u s ⟨[], s⟩
  | found {u s m r : Text} {d : Division} (free : Free occurs u s (m ++ r))
      (here : occurs (u ++ s) m r) (more : Leftmost occurs (u ++ s ++ m) r d) :
      Leftmost occurs u (s ++ m ++ r) ⟨(s, m) :: d.found, d.rest⟩

section Stretches

variable {occurs : Occurrence} {u s m t r : Text} {c : Char} {d : Division}

theorem free_nil : Free occurs u [] r := by
  intro x y m z split filled
  exact absurd (List.append_eq_nil_iff.mp split.symm).2 filled

theorem free_cons : Free occurs u (c :: s) r ↔
    (∀ m z, c :: (s ++ r) = m ++ z → ¬ occurs u m z) ∧ Free occurs (u ++ [c]) s r := by
  constructor
  · intro free
    constructor
    · intro m z same here
      exact free [] (c :: s) m z rfl (by simp) same (by simpa using here)
    · intro x y m z split filled same here
      exact free (c :: x) y m z (by rw [split]; rfl) filled same (by simpa using here)
  · rintro ⟨first, later⟩ x y m z split filled same here
    cases x with
    | nil =>
      rw [List.nil_append] at split
      subst split
      exact first m z same (by simpa using here)
    | cons e x =>
      obtain ⟨rfl, tail⟩ := List.cons.inj split
      exact later x y m z tail filled same (by simpa using here)

theorem Leftmost.of_absent (absent : ∀ x m z, t = x ++ m ++ z → ¬ occurs x m z) :
    Leftmost occurs [] t ⟨[], t⟩ := by
  refine .rest fun x y m z split _ same here => absent x m z ?_ here
  rw [split, List.append_assoc, ← same, List.append_nil]

theorem Leftmost.push (nothing : ∀ m z, c :: t = m ++ z → ¬ occurs u m z)
    (later : Leftmost occurs (u ++ [c]) t d) : Leftmost occurs u (c :: t) (d.push c) := by
  cases later with
  | rest free =>
    refine .rest (free_cons.mpr ⟨?_, free⟩)
    rwa [List.append_nil]
  | @found _ s m r d free here more =>
    have wider : Free occurs u (c :: s) (m ++ r) := by
      refine free_cons.mpr ⟨?_, free⟩
      rwa [← List.append_assoc]
    refine .found (s := c :: s) wider ?_ ?_
    · simpa using here
    · simpa using more

theorem Leftmost.text (leftmost : Leftmost occurs u t d) : d.written id = t := by
  induction leftmost with
  | rest _ => rfl
  | found _ _ _ ih => simpa [written] using ih

theorem Leftmost.occurs_of_mem (leftmost : Leftmost occurs u t d) (member : (s, m) ∈ d.found) :
    ∃ x z, occurs x m z := by
  induction leftmost with
  | rest _ => cases member
  | found _ here _ ih =>
    rcases List.mem_cons.mp member with same | later
    · cases same
      exact ⟨_, _, here⟩
    · exact ih later

theorem Leftmost.absent (leftmost : Leftmost occurs [] t d) (filled : m ≠ []) (none : d.found = [])
    {x z : Text} (split : t = x ++ m ++ z) : ¬ occurs x m z := by
  cases leftmost with
  | rest free =>
    refine free x (m ++ z) m z (by rw [split, List.append_assoc]) ?_ (List.append_nil _)
    simp [filled]
  | found _ _ _ => cases none

theorem exists_leftmost (filled : ∀ {u m r : Text}, occurs u m r → m ≠ []) (u t : Text) :
    ∃ d, Leftmost occurs u t d := by
  induction size : t.length using Nat.strongRecOn generalizing u t with
  | ind n ih =>
    subst size
    cases t with
    | nil => exact ⟨⟨[], []⟩, .rest free_nil⟩
    | cons c rest =>
      by_cases begins : ∃ m z, c :: rest = m ++ z ∧ occurs u m z
      · obtain ⟨m, z, same, here⟩ := begins
        have longer := List.length_pos_iff.mpr (filled here)
        have shorter : z.length < (c :: rest).length := by
          rw [same, List.length_append]
          omega
        obtain ⟨d, more⟩ := ih _ shorter (u ++ m) z rfl
        rw [same]
        refine ⟨_, .found (s := []) free_nil ?_ (d := d) ?_⟩
        · simpa using here
        · simpa using more
      · obtain ⟨d, later⟩ := ih _ (Nat.lt_succ_self _) (u ++ [c]) rest rfl
        exact ⟨d.push c, later.push fun m z same here => begins ⟨m, z, same, here⟩⟩

end Stretches

section Pieces

variable {find : Finder α} {occurs : Occurrence} {value : Text → α} {u t : Text} {d : Division}

theorem flatMap_pieces {f : Piece α → Text} {write : Text → Text} (kept : ∀ c, f (.loose c) = [c])
    (other : ∀ m, f (.token (value m) m) = write m) (d : Division) :
    (d.pieces value).flatMap f = d.written write := by
  have loose (t : Text) : (t.map Piece.loose).flatMap f = t := by
    simp [List.flatMap_map, kept]
  simp [pieces, written, List.flatMap_assoc, loose, other]

theorem values_pieces (value : Text → α) (d : Division) :
    Scan.values (d.pieces value) = d.found.map fun cut => value cut.2 := by
  have loose (t : Text) : (t.map (@Piece.loose α)).filterMap Piece.value? = [] :=
    Scan.values_loose t
  rw [List.map_eq_flatMap]
  simp [pieces, Scan.values, List.filterMap_flatMap, loose, Piece.value?]

def ofPieces : List (Piece α) → Division
  | [] => ⟨[], []⟩
  | .loose c :: ps => (ofPieces ps).push c
  | .token _ raw :: ps => ⟨([], raw) :: (ofPieces ps).found, (ofPieces ps).rest⟩

theorem ofPieces_pieces (value : Text → α) (d : Division) : ofPieces (d.pieces value) = d := by
  have lone (s : Text) : ofPieces (s.map (@Piece.loose α)) = ⟨[], s⟩ := by
    induction s with
    | nil => rfl
    | cons c s ih => rw [List.map_cons, ofPieces, ih, push]
  have led (s m : Text) (a : α) (ps : List (Piece α)) :
      ofPieces (s.map .loose ++ .token a m :: ps) =
        ⟨(s, m) :: (ofPieces ps).found, (ofPieces ps).rest⟩ := by
    induction s with
    | nil => rfl
    | cons c s ih => rw [List.map_cons, List.cons_append, ofPieces, ih, push]
  obtain ⟨found, rest⟩ := d
  induction found with
  | nil => exact lone rest
  | cons cut found ih =>
    have step : pieces value ⟨cut :: found, rest⟩ =
        cut.1.map .loose ++ .token (value cut.2) cut.2 :: pieces value ⟨found, rest⟩ := by
      simp [pieces]
    rw [step, led, ih]

/-- The finder finds what occurs and nothing else, and what it makes of it is seen from the
occurrence alone. -/
structure Finds (find : Finder α) (occurs : Occurrence) (value : Text → α) : Prop where
  filled : ∀ {u m r : Text}, occurs u m r → m ≠ []
  exact : ∀ {u t : Text} {found : α × Nat}, find u.getLast? t = some found ↔
    ∃ m r, t = m ++ r ∧ occurs u m r ∧ found = (value m, m.length)

namespace Finds

variable (finds : Finds find occurs value)
include finds

theorem none_of_free {c : Char} {s r : Text} (free : Free occurs u (c :: s) r) :
    find u.getLast? (c :: (s ++ r)) = none := by
  cases found : find u.getLast? (c :: (s ++ r)) with
  | none => rfl
  | some pair =>
    obtain ⟨m, z, same, here, _⟩ := finds.exact.mp found
    exact absurd here ((free_cons.mp free).1 m z same)

theorem behind_free {s r : Text} (free : Free occurs u s r) :
    Scan.behind find 0 u.getLast? (s ++ r) =
      s.map .loose ++ Scan.behind find 0 (u ++ s).getLast? r := by
  induction s generalizing u with
  | nil => rw [List.append_nil, List.map_nil, List.nil_append, List.nil_append]
  | cons c s ih =>
    rw [List.cons_append, Scan.behind_loose (finds.none_of_free free), ih (free_cons.mp free).2,
      List.append_assoc]
    rfl

theorem pieces_of_leftmost (leftmost : Leftmost occurs u t d) :
    Scan.behind find 0 u.getLast? t = d.pieces value := by
  induction leftmost with
  | @rest u s free =>
    have passed := finds.behind_free free
    rw [List.append_nil] at passed
    cases nothing : (u ++ s).getLast? <;> simpa [nothing, Scan.behind, pieces] using passed
  | @found u s m r d free here _ ih =>
    have token := finds.exact.mpr ⟨m, r, rfl, here, rfl⟩
    rw [List.append_assoc, finds.behind_free free, Scan.behind_token (finds.filled here) token, ih]
    simp [pieces]

/-- There is one division of a text, and the scan hands it back. -/
theorem division (u t : Text) : ∃ d, Leftmost occurs u t d ∧
    (∀ e, Leftmost occurs u t e → e = d) ∧ Scan.behind find 0 u.getLast? t = d.pieces value := by
  obtain ⟨d, leftmost⟩ := exists_leftmost finds.filled u t
  have scanned := finds.pieces_of_leftmost leftmost
  refine ⟨d, leftmost, fun e other => ?_, scanned⟩
  have same := (finds.pieces_of_leftmost other).symm.trans scanned
  rw [← ofPieces_pieces value e, same, ofPieces_pieces]

end Finds

end Pieces

end Division

end CardCatalog
