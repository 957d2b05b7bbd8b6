import CardCatalog.Proofs.Query.ItemYears

/-!
What falls into segments. A space next to an `&` belongs to no segment, so it
does not matter how many there are, and a segment comes back as it was written.
-/

namespace CardCatalog

namespace Query

section Split

theorem splitOn_space (t : Text) :
    (Text.splitOn isAnd (' ' :: t)).map Text.trim = (Text.splitOn isAnd t).map Text.trim := by
  have other : isAnd ' ' = false := by decide
  rw [Text.splitOn, other]
  cases pieces : Text.splitOn isAnd t with
  | nil => exact absurd pieces (Text.splitOn_ne_nil isAnd t)
  | cons piece rest =>
    simp [Text.prepend, Text.trim, Text.stripped_cons Text.space_blank]

theorem splitOn_and {before after : Text} (free : ∀ c ∈ before, isAnd c = false) :
    (Text.splitOn isAnd (before ++ '&' :: after)).map Text.trim =
      Text.trim before :: (Text.splitOn isAnd after).map Text.trim := by
  rw [Text.splitOn_append (by decide), Text.splitOn_eq_self free]
  rfl

theorem trim_space {t : Text} (single : Text.collapse t = t) : Text.trim (t ++ [' ']) = t := by
  rw [Text.trim, Text.stripped_concat Text.space_blank]
  exact Text.trim_single single

theorem and_free_space {t : Text} (free : ∀ c ∈ t, isAnd c = false) :
    ∀ c ∈ t ++ [' '], isAnd c = false := by
  intro c member
  rcases List.mem_append.mp member with inside | space
  · exact free c inside
  · rw [List.mem_singleton.mp space]
    decide

theorem splitOn_joined {t : Text} {ts : List Text}
    (clean : ∀ s ∈ t :: ts, Text.collapse s = s ∧ ∀ c ∈ s, isAnd c = false) :
    (Text.splitOn isAnd (Text.joined [' ', '&', ' '] (t :: ts))).map Text.trim = t :: ts := by
  induction ts generalizing t with
  | nil =>
    obtain ⟨single, free⟩ := clean t (by simp)
    rw [Text.joined, Text.splitOn_eq_self free, List.map_singleton, Text.trim_single single]
  | cons next rest ih =>
    obtain ⟨single, free⟩ := clean t (by simp)
    have tail := @ih next fun s member => clean s (List.mem_cons_of_mem t member)
    have before := and_free_space free
    have shape : Text.joined [' ', '&', ' '] (t :: next :: rest) =
        (t ++ [' ']) ++ '&' :: ' ' :: Text.joined [' ', '&', ' '] (next :: rest) := by
      rw [Text.joined_cons_cons]
      simp
    rw [shape, splitOn_and before, trim_space single, splitOn_space, tail]

theorem joined_and_free {ws : List Text} (clean : ∀ w ∈ ws, ∀ c ∈ w, isAnd c = false) :
    ∀ c ∈ Text.joined [' '] ws, isAnd c = false := by
  intro c member
  rcases Text.mem_joined member with space | ⟨w, listed, inside⟩
  · rw [List.mem_singleton.mp space]
    decide
  · exact clean w listed c inside

theorem splitOn_tail (ws : List Text) :
    (Text.splitOn isAnd (ws.flatMap ([' '] ++ ·))).map Text.trim =
      (Text.splitOn isAnd (Text.joined [' '] ws)).map Text.trim := by
  cases ws with
  | nil => rfl
  | cons w rest =>
    rw [Text.joined_cons, List.flatMap_cons, List.append_assoc]
    exact splitOn_space _

theorem splitOn_mark {ws : List Text} (more : List Text)
    (solid : ∀ w ∈ ws, w ≠ [] ∧ ∀ c ∈ w, Text.isBlank c = false)
    (clean : ∀ w ∈ ws, ∀ c ∈ w, isAnd c = false) :
    (Text.splitOn isAnd (Text.joined [' '] (ws ++ ['&'] :: more))).map Text.trim =
      Text.joined [' '] ws :: (Text.splitOn isAnd (Text.joined [' '] more)).map Text.trim := by
  have free := joined_and_free clean
  have single : Text.collapse (Text.joined [' '] ws) = Text.joined [' '] ws := by
    rw [Text.collapse, Text.words_joined solid]
  by_cases empty : ws = []
  · subst empty
    rw [List.nil_append, Text.joined_cons]
    have split := @splitOn_and [] (more.flatMap ([' '] ++ ·)) (by simp)
    rw [splitOn_tail] at split
    exact split
  · have before := and_free_space free
    rw [Text.joined_append empty (by simp), Text.joined_cons, List.singleton_append,
      splitOn_and before, trim_space single, splitOn_tail]

theorem splitOn_words {ws : List Text} {more : List (List Text)}
    (solid : ∀ vs ∈ ws :: more, ∀ w ∈ vs, w ≠ [] ∧ ∀ c ∈ w, Text.isBlank c = false)
    (clean : ∀ vs ∈ ws :: more, ∀ w ∈ vs, ∀ c ∈ w, isAnd c = false) :
    (Text.splitOn isAnd
        (Text.joined [' '] (ws ++ more.flatMap fun vs => ['&'] :: vs))).map Text.trim =
      (ws :: more).map (Text.joined [' ']) := by
  induction more generalizing ws with
  | nil =>
    have single : Text.collapse (Text.joined [' '] ws) = Text.joined [' '] ws := by
      rw [Text.collapse, Text.words_joined (solid ws (by simp))]
    have free := joined_and_free (clean ws (by simp))
    rw [List.flatMap_nil, List.append_nil, Text.splitOn_eq_self free, List.map_singleton,
      Text.trim_single single]
    rfl
  | cons vs rest ih =>
    have tail := @ih vs (fun us member => solid us (List.mem_cons_of_mem ws member))
      (fun us member => clean us (List.mem_cons_of_mem ws member))
    rw [List.flatMap_cons, List.cons_append,
      splitOn_mark _ (solid ws (by simp)) (clean ws (by simp)), tail]
    rfl

end Split

section Rest

variable {known : List Text} {items : List Item} {q : List (List Item)}

theorem segment_and_free (names : ∀ n ∈ known, Nameable n)
    (formed : ∀ i ∈ items, i.WellFormed known) : ∀ c ∈ renderSegment items, isAnd c = false := by
  apply joined_and_free
  intro t member
  obtain ⟨i, inside, rfl⟩ := List.mem_map.mp member
  exact render_and_free names (formed i inside)

theorem yearless_formed (formed : ∀ i ∈ items, i.WellFormed known) :
    ∀ i ∈ yearless items, i.WellFormed known :=
  fun i member => formed i (List.mem_filter.mp member).1

theorem yearless_eq_self (none : items.filterMap Item.years? = []) : yearless items = items := by
  apply List.filter_eq_self.mpr
  intro i member
  have lasts := List.filterMap_eq_nil_iff.mp none i member
  rw [lasts]
  rfl

theorem words_joined_and (t : Text) (ts : List Text) :
    Text.words (Text.joined [' ', '&', ' '] (t :: ts)) =
      Text.words t ++ (ts.map Text.words).flatMap fun vs => ['&'] :: vs := by
  have mark (s : Text) : Text.words ('&' :: ' ' :: s) = ['&'] :: Text.words s := by
    have alone : Text.words ['&'] = [['&']] := by decide +kernel
    have parted := Text.words_append Text.space_blank ['&'] s
    rw [alone] at parted
    exact parted
  have out := Text.words_spaced_out (fun s => '&' :: ' ' :: s) t ts
  simp only [mark] at out
  rw [Text.joined_cons, List.flatMap_map]
  exact out

theorem words_blanked (items : List Item) :
    Text.words (Text.joined [' '] (items.map remains)) =
      Text.words (renderSegment (yearless items)) := by
  rw [renderSegment, Text.words_joined_texts, Text.words_joined_texts, words_remains]

theorem splitOn_yearless (names : ∀ n ∈ known, Nameable n) {first : List Item}
    {rest : List (List Item)}
    (formed : ∀ items ∈ first :: rest, ∀ i ∈ items, i.WellFormed known)
    (none : yearsOf (first :: rest) = []) :
    (Text.splitOn isAnd (render (first :: rest))).map Text.trim =
      (first :: rest).map fun items => renderSegment (yearless items) := by
  have same : ((first :: rest).map fun items => renderSegment (yearless items)) =
      (first :: rest).map renderSegment := by
    apply List.map_congr_left
    intro items member
    rw [yearless_eq_self (List.flatMap_eq_nil_iff.mp none items member)]
  rw [same, render]
  apply splitOn_joined
  intro t member
  rw [← List.map_cons] at member
  obtain ⟨items, inside, rfl⟩ := List.mem_map.mp member
  have each := formed items inside
  exact ⟨segment_single names each, segment_and_free names each⟩

theorem splitOn_blanked (names : ∀ n ∈ known, Nameable n) {first : List Item}
    {rest : List (List Item)}
    (formed : ∀ items ∈ first :: rest, ∀ i ∈ items, i.WellFormed known) :
    (Text.splitOn isAnd (Text.collapse (YearRange.blanked
        (Scan.pieces YearRange.find (render (first :: rest)))))).map Text.trim =
      (first :: rest).map fun items => renderSegment (yearless items) := by
  have kept : ∀ items ∈ first :: rest, ∀ i ∈ yearless items, i.WellFormed known :=
    fun items member => yearless_formed (formed items member)
  have shape : Text.words (YearRange.blanked
      (Scan.pieces YearRange.find (render (first :: rest)))) =
        Text.words (renderSegment (yearless first)) ++
          (rest.map fun items => Text.words (renderSegment (yearless items))).flatMap
            fun vs => ['&'] :: vs := by
    rw [blanked_render formed, List.map_cons, words_joined_and, words_blanked, List.map_map]
    simp only [Function.comp_def, words_blanked]
  have written : ∀ vs ∈ (first :: rest).map fun items =>
      Text.words (renderSegment (yearless items)),
      ∃ items ∈ first :: rest, Text.words (renderSegment (yearless items)) = vs :=
    fun vs member => List.mem_map.mp member
  rw [List.map_cons] at written
  -- no item has an ampersand of its own, so those that join the segments are all there are
  rw [Text.collapse, shape, splitOn_words]
  · rw [← List.map_cons (f := fun items => Text.words (renderSegment (yearless items))),
      List.map_map]
    apply List.map_congr_left
    intro items member
    exact segment_single names (kept items member)
  · intro vs listed w member
    obtain ⟨items, _, rfl⟩ := written vs listed
    exact Text.mem_words member
  · intro vs listed w member c inside
    obtain ⟨items, among, rfl⟩ := written vs listed
    exact segment_and_free names (kept items among) c (Text.mem_of_mem_words member c inside)

/-- Whether there were years or not, the segments without them are what is left. -/
theorem segments_rest (names : ∀ n ∈ known, Nameable n)
    (formed : ∀ items ∈ q, ∀ i ∈ items, i.WellFormed known) :
    segments (YearRange.extract (render q)).2 =
      (q.map fun items => renderSegment (yearless items)).filter (!·.isEmpty) := by
  have found := values_render formed
  cases q with
  | nil => rfl
  | cons first rest =>
    rw [YearRange.extract, found]
    cases years : yearsOf (first :: rest) with
    | nil => rw [segments, splitOn_yearless names formed years]
    | cons range more => rw [segments, splitOn_blanked names formed]

end Rest

end Query

end CardCatalog
