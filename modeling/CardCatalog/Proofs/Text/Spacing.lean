import CardCatalog.Proofs.Text.Scan

/-!
Texts that differ in their blanks only. To squeeze a text is to put one space for
every run of blanks; unlike collapsing it goes character by character, so it passes
through to the parts of a text wherever the cut is. Texts of the same words squeeze
to the same once there is a blank around them.
-/

namespace CardCatalog

namespace Text

/-- One character more in front, and no second space. -/
def push (c : Char) (t : Text) : Text :=
  if isBlank c then if t.head? = some ' ' then t else ' ' :: t else c :: t

def squeeze (t : Text) : Text := t.foldr push []

section Push

variable {b c : Char} {t : Text}

theorem push_solid (solid : isBlank c = false) (t : Text) : push c t = c :: t := by
  simp [push, solid]

theorem push_blank (blank : isBlank c = true) (t : Text) : push c t = push ' ' t := by
  simp [push, blank, space_blank]

theorem push_open (other : t.head? ≠ some ' ') : push ' ' t = ' ' :: t := by
  simp [push, space_blank, other]

theorem push_word {w : Text} (filled : w ≠ []) (solid : ∀ c ∈ w, isBlank c = false) (t : Text) :
    push ' ' (w ++ t) = ' ' :: (w ++ t) := by
  obtain ⟨c, rest, rfl⟩ := List.exists_cons_of_ne_nil filled
  apply push_open
  intro same
  have first := solid c (by simp)
  rw [List.cons_append, List.head?_cons, Option.some_inj] at same
  rw [same, space_blank] at first
  cases first

theorem push_space (t : Text) : push ' ' (' ' :: t) = ' ' :: t := by
  simp [push, space_blank]

theorem push_cases (blank : isBlank c = true) (t : Text) :
    (∃ rest, t = ' ' :: rest ∧ push c t = t) ∨ push c t = ' ' :: t := by
  rw [push, if_pos blank]
  by_cases spaced : t.head? = some ' '
  · obtain ⟨rest, rfl⟩ := List.head?_eq_some_iff.mp spaced
    exact .inl ⟨rest, rfl, if_pos spaced⟩
  · exact .inr (if_neg spaced)

theorem push_push (t : Text) : push ' ' (push ' ' t) = push ' ' t := by
  rcases push_cases space_blank t with ⟨rest, rfl, same⟩ | space
  · rw [same, same]
  · rw [space, push_space]

end Push

section Squeeze

variable {x y w t : Text} {c : Char}

theorem squeeze_cons (c : Char) (t : Text) : squeeze (c :: t) = push c (squeeze t) := rfl

theorem squeeze_solid (solid : ∀ c ∈ w, isBlank c = false) (t : Text) :
    squeeze (w ++ t) = w ++ squeeze t := by
  induction w with
  | nil => rfl
  | cons c w ih =>
    have tail := ih fun d member => solid d (List.mem_cons_of_mem c member)
    rw [List.cons_append, squeeze_cons, push_solid (solid c (by simp)), tail, List.cons_append]

theorem squeeze_head {c : Char} (blank : ∀ c ∈ t.head?, isBlank c = true)
    (head : c ∈ (squeeze t).head?) : isBlank c = true := by
  cases t with
  | nil => cases head
  | cons d rest =>
    rw [squeeze_cons] at head
    rcases push_cases (blank d rfl) (squeeze rest) with ⟨more, shape, same⟩ | space
    · rw [same, shape] at head
      cases head
      exact space_blank
    · rw [space] at head
      cases head
      exact space_blank

theorem squeeze_cut (t : Text) :
    ∃ w rest, t = w ++ rest ∧ squeeze t = w ++ squeeze rest ∧
      (∀ c ∈ rest.head?, isBlank c = true) ∧ ∀ c ∈ (squeeze rest).head?, isBlank c = true := by
  have whole := @List.takeWhile_append_dropWhile _ (!isBlank ·) t
  have solid : ∀ c ∈ t.takeWhile (!isBlank ·), isBlank c = false := by
    intro c member
    simpa using List.all_eq_true.mp List.all_takeWhile c member
  have blank : ∀ c ∈ (t.dropWhile (!isBlank ·)).head?, isBlank c = true := by
    intro c head
    have stops := List.head?_dropWhile_not (!isBlank ·) t
    rw [Option.mem_def.mp head] at stops
    simpa using stops
  refine ⟨_, _, whole.symm, ?_, blank, fun c head => squeeze_head blank head⟩
  rw [← squeeze_solid solid, whole]

theorem prefix_cut {m rest : Text} (solid : ∀ c ∈ m, isBlank c = false)
    (blank : ∀ c ∈ rest.head?, isBlank c = true) : m <+: w ++ rest ↔ m <+: w := by
  constructor
  · intro start
    cases rest with
    | nil => rwa [List.append_nil] at start
    | cons c more =>
      apply Scan.prefix_before _ start
      intro inside
      have clear := solid c inside
      rw [blank c rfl] at clear
      cases clear
  · exact fun start => start.trans (List.prefix_append w rest)

theorem squeeze_append (solid : isBlank c = false) (x y : Text) :
    squeeze (x ++ c :: y) = squeeze x ++ c :: squeeze y := by
  induction x with
  | nil => rw [List.nil_append, squeeze_cons, push_solid solid]; rfl
  | cons d x ih =>
    rw [List.cons_append, squeeze_cons, squeeze_cons, ih]
    cases blank : isBlank d with
    | false => rw [push_solid blank, push_solid blank, List.cons_append]
    | true =>
      rw [push_blank blank, push_blank blank]
      cases front : squeeze x with
      | nil =>
        have other : c ≠ ' ' := by
          rintro rfl
          rw [space_blank] at solid
          cases solid
        rw [List.nil_append, push_open (by simpa using other), push_open (by simp)]
        rfl
      | cons e rest =>
        by_cases space : e = ' '
        · rw [space, List.cons_append, push_space, push_space, List.cons_append]
        · rw [List.cons_append, push_open (by simpa using space), push_open (by simpa using space)]
          rfl

theorem filter_squeeze (t : Text) : (squeeze t).filter (!isBlank ·) = t.filter (!isBlank ·) := by
  induction t with
  | nil => rfl
  | cons c t ih =>
    rw [squeeze_cons]
    cases blank : isBlank c with
    | false => rw [push_solid blank, List.filter_cons, ih, List.filter_cons]
    | true =>
      have lost : (c :: t).filter (!isBlank ·) = t.filter (!isBlank ·) := by simp [blank]
      rw [lost, ← ih]
      rcases push_cases blank (squeeze t) with ⟨_, _, same⟩ | space
      · rw [same]
      · rw [space]
        simp [space_blank]

/-- The word in front is there because a word may begin in it and end in the text. -/
theorem words_solid_squeeze (w t : Text) : words (w ++ squeeze t) = words (w ++ t) := by
  induction t generalizing w with
  | nil => rfl
  | cons c t ih =>
    rw [squeeze_cons]
    cases blank : isBlank c with
    | false =>
      rw [push_solid blank, ← List.singleton_append, ← List.append_assoc, ih, List.append_assoc,
        List.singleton_append]
    | true =>
      have later : words (squeeze t) = words t := ih []
      rw [words_append blank, ← later]
      rcases push_cases blank (squeeze t) with ⟨rest, shape, same⟩ | space
      · rw [same, shape, words_append space_blank]
        exact congrArg _ (words_append space_blank [] rest).symm
      · rw [space, words_append space_blank]

theorem words_squeeze (t : Text) : words (squeeze t) = words t := words_solid_squeeze [] t

theorem squeeze_words (solid : ∀ c ∈ w, isBlank c = false) (t : Text) :
    push ' ' (w ++ squeeze (t ++ [' '])) = (words (w ++ t)).flatMap (' ' :: ·) ++ [' '] := by
  -- the word read so far grows by each solid character, and a blank ends it
  induction t generalizing w with
  | nil =>
    have last : squeeze [' '] = [' '] := by decide +kernel
    rw [List.nil_append, last, List.append_nil]
    by_cases empty : w = []
    · subst empty
      rw [List.nil_append, push_space]
      rfl
    · rw [words_self empty solid, push_word empty solid, List.flatMap_singleton]
      rfl
  | cons c t ih =>
    rw [List.cons_append, squeeze_cons]
    cases blank : isBlank c with
    | false =>
      have longer : ∀ d ∈ w ++ [c], isBlank d = false := by
        intro d member
        rcases List.mem_append.mp member with inside | here
        · exact solid d inside
        · rwa [List.mem_singleton.mp here]
      have step := ih longer
      rw [List.append_assoc, List.append_assoc, List.singleton_append] at step
      rw [push_solid blank]
      exact step
    | true =>
      have later := @ih [] (by simp)
      rw [List.nil_append, List.nil_append] at later
      rw [push_blank blank, later, words_append blank]
      by_cases empty : w = []
      · subst empty
        cases words t with
        | nil => rw [List.nil_append, List.flatMap_nil, List.nil_append, push_space]; rfl
        | cons v rest =>
          rw [List.nil_append, List.flatMap_cons, List.cons_append, List.cons_append, push_space]
          rfl
      · rw [words_self empty solid, push_word empty solid]
        simp

theorem squeeze_of_words (same : words x = words y) :
    squeeze (' ' :: (x ++ [' '])) = squeeze (' ' :: (y ++ [' '])) := by
  have left := @squeeze_words [] (by simp) x
  have right := @squeeze_words [] (by simp) y
  rw [List.nil_append, List.nil_append] at left right
  rw [squeeze_cons, squeeze_cons, left, right, same]

theorem words_of_squeeze (same : squeeze x = squeeze y) : words x = words y := by
  rw [← words_squeeze x, same, words_squeeze]

theorem squeeze_behind (x : Text) (same : squeeze y = squeeze t) :
    squeeze (x ++ y) = squeeze (x ++ t) := by
  rw [squeeze, squeeze, List.foldr_append, List.foldr_append]
  exact congrArg (x.foldr push) same

theorem squeeze_squeeze_append (x y : Text) : squeeze (squeeze x ++ y) = squeeze (x ++ y) := by
  induction x with
  | nil => rfl
  | cons c x ih =>
    rw [List.cons_append, squeeze_cons, squeeze_cons, ← ih]
    cases blank : isBlank c with
    | false =>
      rw [push_solid blank, push_solid blank, List.cons_append, squeeze_cons, push_solid blank]
    | true =>
      rw [push_blank blank (squeeze (squeeze x ++ y))]
      rcases push_cases blank (squeeze x) with ⟨rest, shape, same⟩ | space
      · rw [same, shape, List.cons_append, squeeze_cons, push_push]
      · rw [space, List.cons_append, squeeze_cons]

theorem squeeze_squeeze (x : Text) : squeeze (squeeze x) = squeeze x := by
  have twice := squeeze_squeeze_append x []
  rwa [List.append_nil, List.append_nil] at twice

-- The cut is behind a character that is no blank.
theorem squeeze_closed (last : ∀ c ∈ x.getLast?, isBlank c = false) (y : Text) :
    squeeze (x ++ y) = squeeze x ++ squeeze y := by
  rcases List.eq_nil_or_concat x with rfl | ⟨init, c, rfl⟩
  · rfl
  · have solid := last c (by simp)
    have own := squeeze_append solid init []
    rw [List.concat_eq_append, own, List.append_assoc, List.singleton_append, squeeze_append solid,
      List.append_assoc]
    rfl

theorem squeeze_congr {x' y' : Text} (front : squeeze x = squeeze x')
    (back : squeeze y = squeeze y') : squeeze (x ++ y) = squeeze (x' ++ y') := by
  rw [squeeze_behind x back, ← squeeze_squeeze_append, front, squeeze_squeeze_append]

-- Single spaces are all the blanks of a text that neither begins nor ends with one.
theorem squeeze_ends (first : ∀ c ∈ t.head?, isBlank c = false)
    (last : ∀ c ∈ t.getLast?, isBlank c = false) : squeeze t = collapse t := by
  cases t with
  | nil => rfl
  | cons c rest =>
    have solid := first c rfl
    have space : squeeze [' '] = [' '] := by decide +kernel
    have front : push ' ' (squeeze (c :: rest) ++ [' ']) =
        ' ' :: (squeeze (c :: rest) ++ [' ']) := by
      rw [squeeze_cons, push_solid solid, List.cons_append]
      exact push_word (w := [c]) (by simp) (by simpa using solid) _
    have framed := @squeeze_words [] (by simp) (c :: rest)
    rw [List.nil_append, List.nil_append, squeeze_closed last, space, front, ← List.cons_append]
      at framed
    have spaced := List.append_cancel_right framed
    cases listed : words (c :: rest) with
    | nil =>
      rw [listed] at spaced
      cases spaced
    | cons w more =>
      rw [listed, List.flatMap_cons, List.cons_append] at spaced
      rw [collapse, listed, joined_cons]
      exact (List.cons.inj spaced).2

section Split

variable {p : Char → Bool} (solid : ∀ c, p c = true → isBlank c = false)
include solid

theorem free_squeeze (free : ∀ c ∈ t, p c = false) : ∀ c ∈ squeeze t, p c = false := by
  intro c member
  cases marked : p c with
  | false => rfl
  | true =>
    have kept : c ∈ (squeeze t).filter (!isBlank ·) :=
      List.mem_filter.mpr ⟨member, by simp [solid c marked]⟩
    rw [filter_squeeze] at kept
    rw [free c (List.mem_filter.mp kept).1] at marked
    cases marked

theorem splitOn_squeeze (t : Text) : splitOn p (squeeze t) = (splitOn p t).map squeeze := by
  -- what is read of the first piece stands before the text
  suffices step : ∀ w, (∀ c ∈ w, p c = false) →
      splitOn p (squeeze (w ++ t)) = (splitOn p (w ++ t)).map squeeze from step [] (by simp)
  induction t with
  | nil =>
    intro w free
    rw [List.append_nil, splitOn_eq_self free, splitOn_eq_self (free_squeeze solid free)]
    rfl
  | cons c t ih =>
    intro w free
    cases separator : p c with
    | true =>
      have later := ih [] (by simp)
      rw [List.nil_append] at later
      rw [squeeze_append (solid c separator), splitOn_append separator, splitOn_append separator,
        splitOn_eq_self free, splitOn_eq_self (free_squeeze solid free), later]
      rfl
    | false =>
      have longer : ∀ d ∈ w ++ [c], p d = false := by
        intro d member
        rcases List.mem_append.mp member with inside | here
        · exact free d inside
        · rwa [List.mem_singleton.mp here]
      have step := ih (w ++ [c]) longer
      rwa [List.append_assoc, List.singleton_append] at step

end Split

end Squeeze

end Text

end CardCatalog
