import CardCatalog.Text.Basic

/-!
The parts of a text between separators of some kind; words are the parts between
blanks. A part is what stands between two separators or ends of the text, so the
parts do not depend on what else there is, and a text is parted in two steps as it
is at once.
-/

namespace CardCatalog

namespace Text

section Split

variable {p q : Char → Bool}

theorem prepend_append {c : Char} {pieces : List Text} (some : pieces ≠ []) (more : List Text) :
    prepend c (pieces ++ more) = prepend c pieces ++ more := by
  cases pieces with
  | nil => exact absurd rfl some
  | cons piece rest => rfl

theorem splitOn_refine (wider : ∀ c, p c = true → q c = true) (t : Text) :
    splitOn q t = (splitOn p t).flatMap (splitOn q) := by
  induction t with
  | nil => rfl
  | cons c rest ih =>
    cases separator : p c with
    | true => simp [splitOn, separator, wider c separator, ih]
    | false =>
      cases pieces : splitOn p rest with
      | nil => exact absurd pieces (splitOn_ne_nil p rest)
      | cons piece more =>
        rw [pieces, List.flatMap_cons] at ih
        have cut : splitOn p (c :: rest) = (c :: piece) :: more := by
          simp [splitOn, separator, pieces, prepend]
        rw [cut, List.flatMap_cons]
        cases finer : q c with
        | true => simp [splitOn, finer, ih]
        | false => simp [splitOn, finer, ih, prepend_append (splitOn_ne_nil q piece)]

theorem splitOn_map {f : Char → Char} (same : ∀ c, p (f c) = p c) (t : Text) :
    splitOn p (t.map f) = (splitOn p t).map (·.map f) := by
  induction t with
  | nil => rfl
  | cons c rest ih =>
    cases separator : p c with
    | true => simp [splitOn, separator, same, ih]
    | false =>
      cases pieces : splitOn p rest with
      | nil => exact absurd pieces (splitOn_ne_nil p rest)
      | cons piece more => simp [splitOn, separator, same, ih, pieces, prepend]

theorem splitOn_takeWhile (p : Char → Bool) (t : Text) :
    splitOn p t = t.takeWhile (!p ·) :: (splitOn p (t.dropWhile (!p ·))).tail := by
  induction t with
  | nil => rfl
  | cons c rest ih =>
    cases separator : p c with
    | true => simp [splitOn, separator]
    | false =>
      rw [splitOn, separator, ih]
      simp [prepend, separator]

theorem joined_splitOn {d : Char} (only : ∀ c, p c = true → c = d) (t : Text) :
    joined [d] (splitOn p t) = t := by
  induction t with
  | nil => rfl
  | cons c rest ih =>
    cases pieces : splitOn p rest with
    | nil => exact absurd pieces (splitOn_ne_nil p rest)
    | cons piece more =>
      rw [pieces] at ih
      cases separator : p c with
      | true =>
        obtain rfl := only c separator
        rw [splitOn, if_pos separator, pieces, joined_cons_cons, ih]
        rfl
      | false =>
        rw [splitOn, if_neg (by simp [separator]), pieces, prepend]
        cases more with
        | nil => exact congrArg (List.cons c) ih
        | cons next later =>
          rw [joined_cons_cons] at ih ⊢
          rw [← ih]
          rfl

theorem drop_takeWhile (p : Char → Bool) (t : Text) :
    t.drop (t.takeWhile p).length = t.dropWhile p := by
  induction t with
  | nil => rfl
  | cons c rest ih => cases taken : p c <;> simp [taken, ih]

end Split

def parted (p : Char → Bool) (t : Text) : List Text := (splitOn p t).filter (!·.isEmpty)

theorem words_eq_parted (t : Text) : words t = parted isBlank t := rfl

section Parted

variable {p q : Char → Bool} {w : Text}

theorem parted_separator {c : Char} (separator : p c = true) (before after : Text) :
    parted p (before ++ c :: after) = parted p before ++ parted p after := by
  simp [parted, splitOn_append separator]

theorem parted_cons {c : Char} (separator : p c = true) (t : Text) :
    parted p (c :: t) = parted p t :=
  parted_separator separator [] t

theorem parted_concat {c : Char} (separator : p c = true) (t : Text) :
    parted p (t ++ [c]) = parted p t :=
  (parted_separator separator t []).trans (List.append_nil _)

theorem parted_self (some : w ≠ []) (solid : ∀ c ∈ w, p c = false) : parted p w = [w] := by
  simp [parted, splitOn_eq_self solid, some]

theorem parted_append {left right : Text}
    (apart : ∀ c ∈ left.getLast?, ∀ d ∈ right.head?, p c = true ∨ p d = true) :
    parted p (left ++ right) = parted p left ++ parted p right := by
  cases last : left.getLast? with
  | none => rw [List.getLast?_eq_none_iff.mp last]; rfl
  | some c =>
    cases right with
    | nil => exact (congrArg _ (List.append_nil left)).trans (List.append_nil _).symm
    | cons d rest =>
      obtain ⟨init, rfl⟩ := List.getLast?_eq_some_iff.mp last
      rcases apart c (by simp) d (by simp) with separator | separator
      · rw [List.append_assoc, List.singleton_append, parted_separator separator,
          parted_concat separator]
      · rw [parted_separator separator, parted_cons separator]

theorem parted_map {f : Char → Char} (same : ∀ c, p (f c) = p c) (t : Text) :
    parted p (t.map f) = (parted p t).map (·.map f) := by
  rw [parted, parted, splitOn_map same, List.filter_map]
  congr 2
  funext piece
  simp

theorem parted_refine (wider : ∀ c, p c = true → q c = true) (t : Text) :
    parted q t = (parted p t).flatMap (parted q) := by
  have pieces : ∀ ts : List Text, (ts.flatMap (splitOn q)).filter (!·.isEmpty) =
      (ts.filter (!·.isEmpty)).flatMap (parted q) := by
    intro ts
    induction ts with
    | nil => rfl
    | cons piece rest ih =>
      cases piece with
      | nil => simpa [splitOn] using ih
      | cons c more =>
        rw [List.flatMap_cons, List.filter_append, ih, List.filter_cons_of_pos (by simp),
          List.flatMap_cons]
        rfl
  rw [parted, splitOn_refine wider, pieces]
  rfl

theorem flatMap_parted {α : Type} {f : Text → List α} (nothing : f [] = [])
    (cut : ∀ c, p c = true → ∀ before after, f (before ++ c :: after) = f before ++ f after)
    (t : Text) : f t = (parted p t).flatMap f := by
  have alone {w : Text} (solid : ∀ c ∈ w, p c = false) : f w = (parted p w).flatMap f := by
    by_cases empty : w = []
    · subst empty
      exact nothing
    · rw [parted_self empty solid, List.flatMap_singleton]
  -- the part that is being read stands before the text
  suffices step : ∀ w, (∀ c ∈ w, p c = false) → f (w ++ t) = (parted p (w ++ t)).flatMap f from
    step [] (by simp)
  induction t with
  | nil =>
    intro w solid
    rw [List.append_nil]
    exact alone solid
  | cons c rest ih =>
    intro w solid
    cases separator : p c with
    | true =>
      have later := ih [] (by simp)
      rw [cut c separator, parted_separator separator, List.flatMap_append, alone solid]
      exact congrArg _ later
    | false =>
      have longer : ∀ d ∈ w ++ [c], p d = false := by
        intro d member
        rcases List.mem_append.mp member with inside | here
        · exact solid d inside
        · rwa [List.mem_singleton.mp here]
      have step := ih (w ++ [c]) longer
      rwa [List.append_assoc, List.singleton_append] at step

theorem splitOn_congr {t : Text} (same : ∀ c ∈ t, p c = q c) : splitOn p t = splitOn q t := by
  induction t with
  | nil => rfl
  | cons c rest ih =>
    have tail := ih fun d member => same d (List.mem_cons_of_mem c member)
    rw [splitOn, splitOn, same c (by simp), tail]

theorem splitOn_between (p : Char → Bool) {t piece : Text} (member : piece ∈ splitOn p t) :
    ∃ before after, t = before ++ piece ++ after ∧ (∀ c ∈ before.getLast?, p c = true) ∧
      ∀ c ∈ after.head?, p c = true := by
  -- a step takes a whole piece, not one character, so the induction is on the length
  induction size : t.length using Nat.strongRecOn generalizing t with
  | ind n ih =>
    subst size
    have stops := List.head?_dropWhile_not (!p ·) t
    have whole := @List.takeWhile_append_dropWhile _ (!p ·) t
    rw [splitOn_takeWhile] at member
    rcases List.mem_cons.mp member with rfl | later
    · refine ⟨[], t.dropWhile (!p ·), whole.symm, by simp, fun c head => ?_⟩
      rw [Option.mem_def.mp head] at stops
      simpa using stops
    · cases rest : t.dropWhile (!p ·) with
      | nil => simp [rest, splitOn] at later
      | cons c more =>
        rw [rest] at stops whole later
        have separator : p c = true := by simpa using stops
        rw [splitOn, if_pos separator, List.tail_cons] at later
        have shorter : more.length < t.length := by
          rw [← whole, List.length_append, List.length_cons]
          omega
        obtain ⟨before, after, split, left, right⟩ := ih _ shorter later rfl
        refine ⟨t.takeWhile (!p ·) ++ [c] ++ before, after, ?_, fun d last => ?_, right⟩
        · exact whole.symm.trans (by simp [split])
        · rw [List.getLast?_append, List.getLast?_concat] at last
          cases own : before.getLast? with
          | none =>
            rw [own] at last
            cases last
            exact separator
          | some e =>
            rw [own] at last
            cases last
            exact left d own

theorem mem_parted {t : Text} :
    w ∈ parted p t ↔ w ≠ [] ∧ (∀ c ∈ w, p c = false) ∧
      ∃ before after, t = before ++ w ++ after ∧ (∀ c ∈ before.getLast?, p c = true) ∧
        ∀ c ∈ after.head?, p c = true := by
  constructor
  · intro member
    obtain ⟨piece, some⟩ := List.mem_filter.mp member
    exact ⟨by simpa using some, mem_splitOn piece, splitOn_between p piece⟩
  · rintro ⟨some, solid, before, after, rfl, left, right⟩
    have first : parted p (before ++ w ++ after) = parted p (before ++ w) ++ parted p after :=
      parted_append fun c _ d head => .inr (right d head)
    have second : parted p (before ++ w) = parted p before ++ parted p w :=
      parted_append fun c last d _ => .inl (left c last)
    rw [first, second, parted_self some solid]
    simp

end Parted

end Text

end CardCatalog
