import CardCatalog.Proofs.Query.ItemYears
import CardCatalog.Proofs.Query.Shape
import CardCatalog.Proofs.Query.Standing

/-!
Keywords of a query. A word of letters and numbers between two edges is a keyword
whatever else the query says: years are taken out around it, the sign between groups
does not part it, and a scope either leaves it alone or has it in its value. Where
such a word is, there is something to ask for.
-/

namespace CardCatalog

namespace Text

theorem mem_quotation {rest : Text} {c : Char}
    (inside : c ∈ rest.take ((rest.takeWhile (!isQuote ·)).length + 1)) (other : isQuote c = false) :
    c ∈ rest.takeWhile (!isQuote ·) := by
  rw [List.take_add, ← List.prefix_iff_eq_take.mp (List.takeWhile_prefix _), drop_takeWhile] at inside
  rcases List.mem_append.mp inside with within | closing
  · exact within
  · have stops := List.head?_dropWhile_not (!isQuote ·) rest
    cases behind : rest.dropWhile (!isQuote ·) with
    | nil =>
      rw [behind] at closing
      cases closing
    | cons d more =>
      rw [behind] at closing stops
      cases List.mem_singleton.mp closing
      simp [other] at stops

end Text

namespace Phrase

variable {t : Text} {c : Char}

theorem value_ne_nil {v raw : Text} (token : .token v raw ∈ Scan.pieces find t) (inside : c ∈ raw)
    (letter : Text.isAlphanumeric c = true) : v ≠ [] := by
  have other : Text.isQuote c = false := by
    cases quote : Text.isQuote c with
    | false => rfl
    | true =>
      rw [Scope.isQuote_iff.mp quote] at letter
      exact absurd letter (by decide +kernel)
  obtain ⟨before, u, n, found, rfl⟩ := Scan.found_of_token 0 none t token
  cases u with
  | nil => cases found
  | cons d rest =>
    rw [find] at found
    by_cases quote : Text.isQuote d = true
    · rw [if_pos quote] at found
      split at found
      · cases found
        rw [List.take_succ_cons] at inside
        rcases List.mem_cons.mp inside with rfl | later
        · rw [quote] at other
          cases other
        · exact Text.trim_ne_nil (Text.mem_quotation later other) (Text.solid_of_alphanumeric letter)
      · cases found
    · rw [if_neg quote] at found
      obtain ⟨number, _, same⟩ := Option.map_eq_some_iff.mp found
      cases same
      rintro rfl
      simp at inside

theorem leaves_ne_nil (weighted : List WeightedField) (inside : c ∈ t)
    (letter : Text.isAlphanumeric c = true) : leaves weighted t ≠ [] := by
  rw [← Scan.raw_pieces find t] at inside
  obtain ⟨piece, listed, within⟩ := List.mem_flatMap.mp inside
  rw [leaves]
  cases piece with
  | loose d =>
    cases List.mem_singleton.mp within
    have rest : (leftover (Scan.pieces find t)).any Text.isAlphanumeric = true := by
      refine List.any_eq_true.mpr ⟨c, ?_, letter⟩
      refine Text.mem_collapse ?_ (Text.solid_of_alphanumeric letter)
      exact List.mem_flatMap.mpr ⟨_, listed, List.mem_singleton_self c⟩
    simp [rest]
  | token v raw =>
    have phrase : v ∈ (Scan.values (Scan.pieces find t)).filter (!·.isEmpty) := by
      refine List.mem_filter.mpr ⟨List.mem_filterMap.mpr ⟨_, listed, rfl⟩, ?_⟩
      simpa using value_ne_nil listed within letter
    have some := List.ne_nil_of_mem (List.mem_map_of_mem (f := (Leaf.phrase · weighted)) phrase)
    split
    · simp
    · exact some

end Phrase

namespace Query

/-- What separates the words of a query: blanks, and the sign between its groups. -/
def isEdge (c : Char) : Bool := Text.isBlank c || isAnd c

/-- A word of letters and numbers that is read as nothing else. -/
structure Keyable (k : Text) : Prop where
  solid : Scope.Solid k
  single : ∀ c ∈ k, isAnd c = false
  dashless : '-' ∉ k
  lettered : ∃ c ∈ k, Text.isAlphanumeric c = true

theorem parted_collapse (t : Text) :
    Text.parted isEdge (Text.collapse t) = Text.parted isEdge t := by
  have wider : ∀ c, Text.isBlank c = true → isEdge c = true := by simp +contextual [isEdge]
  rw [Text.parted_refine wider, ← Text.words_eq_parted, Text.words_collapse, Text.words_eq_parted,
    ← Text.parted_refine wider]

section Years

variable {w before after : Text}

theorem edge_not_numeral {c : Char} (edge : isEdge c = true) :
    ¬ (Text.isDigit c = true ∨ c = '-') := by
  intro numeral
  obtain ⟨unblank, _, _, single⟩ := numeral_solid numeral
  simp [isEdge, unblank, single] at edge

theorem find_edge {b : Char} (edge : isEdge b = true) {p : Option Char} {x r : Text} {a : YearRange}
    {n : Nat} (found : YearRange.find p (x ++ b :: r) = some (a, n)) :
    n ≤ x.length ∧ '-' ∈ x := by
  obtain ⟨range, head, same⟩ := Option.map_eq_some_iff.mp found
  obtain ⟨first, last, four, other, start⟩ := years_of_atHead head
  have outside : b ∉ first ++ '-' :: last := fun inside =>
    edge_not_numeral edge (years_numeral four other b inside)
  have within := Scan.prefix_before outside start
  cases same
  refine ⟨?_, within.subset (by simp)⟩
  have long := within.length_le
  rw [List.length_append, List.length_cons, four.1, other.1] at long
  exact long

theorem find_dashless (dashless : '-' ∉ w) (right : ∀ c ∈ after.head?, isEdge c = true)
    (p : Option Char) : YearRange.find p (w ++ after) = none := by
  cases found : YearRange.find p (w ++ after) with
  | none => rfl
  | some pair =>
    cases after with
    | nil =>
      obtain ⟨range, head, _⟩ := Option.map_eq_some_iff.mp found
      obtain ⟨first, last, _, _, start⟩ := years_of_atHead head
      rw [List.append_nil] at start
      exact absurd (start.subset (by simp)) dashless
    | cons b r => exact absurd (find_edge (right b rfl) found).2 dashless

theorem behind_dashless (dashless : '-' ∉ w) (right : ∀ c ∈ after.head?, isEdge c = true)
    (u : Text) :
    Scan.behind YearRange.find 0 u.getLast? (w ++ after) =
      w.map .loose ++ Scan.behind YearRange.find 0 (u ++ w).getLast? after := by
  induction w generalizing u with
  | nil => simp
  | cons c w ih =>
    have later := ih (fun dash => dashless (List.mem_cons_of_mem c dash)) (u ++ [c])
    have none : YearRange.find u.getLast? (c :: (w ++ after)) = none :=
      find_dashless (w := c :: w) dashless right u.getLast?
    rw [List.cons_append, Scan.behind_loose none, later]
    simp

theorem blanked_around (dashless : '-' ∉ w) (left : ∀ c ∈ before.getLast?, isEdge c = true)
    (right : ∀ c ∈ after.head?, isEdge c = true) :
    ∃ front back, YearRange.blanked (Scan.pieces YearRange.find (before ++ w ++ after)) =
        front ++ w ++ back ∧ (∀ c ∈ front.getLast?, isEdge c = true) ∧
      ∀ c ∈ back.head?, isEdge c = true := by
  have behind : ∀ u : Text, ∃ back,
      YearRange.blanked (Scan.behind YearRange.find 0 u.getLast? (w ++ after)) = w ++ back ∧
        ∀ c ∈ back.head?, isEdge c = true := by
    intro u
    rw [behind_dashless dashless right]
    refine ⟨YearRange.blanked (Scan.behind YearRange.find 0 (u ++ w).getLast? after), ?_, ?_⟩
    · simp [YearRange.blanked, List.flatMap_append, List.flatMap_map]
    · cases after with
      | nil => simp [Scan.behind, YearRange.blanked]
      | cons c rest =>
        have none := find_dashless (w := []) (by simp) right (u ++ w).getLast?
        rw [Scan.behind_loose none]
        simpa [YearRange.blanked] using right
  rcases List.eq_nil_or_concat' before with rfl | ⟨init, b, rfl⟩
  · obtain ⟨back, same, late⟩ := behind []
    exact ⟨[], back, by simpa [Scan.pieces] using same, by simp, late⟩
  · have edge : isEdge b = true := left b (by simp)
    -- no range runs across an edge, so the scan behind it does not depend on what was before
    have stops : ∀ p y a n,
        YearRange.find p (y ++ b :: (w ++ after)) = some (a, n) → n ≤ y.length :=
      fun _ _ _ _ found => (find_edge edge found).1
    obtain ⟨ps, same⟩ := Scan.behind_barrier stops init (Nat.zero_le _) none
    obtain ⟨back, later, late⟩ := behind [b]
    refine ⟨YearRange.blanked ps ++ [b], back, ?_, by simpa using edge, late⟩
    rw [Scan.pieces, List.append_assoc, List.append_assoc, List.singleton_append, same]
    simp only [YearRange.blanked] at later ⊢
    rw [List.flatMap_append, List.flatMap_cons]
    simpa using later

end Years

section Standing

variable {fields : SearchFields} {k quotes : Text} (names : ∀ n ∈ fields.scopable, Scope.Plain n)
  (keyable : Keyable k) (all : ∀ c ∈ quotes, Text.isQuote c = true)

include names keyable all

theorem keyword_of_word {segment : Text} (word : k ++ quotes ∈ Text.words segment) :
    k ∈ keywords fields segment ∧ group fields segment ≠ [] := by
  obtain ⟨c, inside, letter⟩ := keyable.lettered
  have asked : ∀ {t : Text} {quotes : Text}, k ++ quotes ∈ Text.words t →
      (Phrase.compile fields.weighted t).toList ≠ [] := by
    intro t quotes among
    have leaves := Phrase.leaves_ne_nil fields.weighted
      (Text.mem_of_mem_words among c (List.mem_append_left quotes inside)) letter
    rw [Phrase.compile]
    simpa [Clause.ofLeaves_eq_none] using leaves
  by_cases colon : segment.contains ':' = true
  · have cut : parts fields segment = Scope.split fields.scopable segment := by
      rw [parts, if_pos colon]
    rw [keywords, group, cut]
    have kept := Scope.word_of_split names keyable.solid all word
    rcases kept with ⟨scope, listed, value⟩ | ⟨_, quoted, left⟩
    · exact ⟨List.mem_append_left _ (List.mem_flatMap.mpr ⟨scope, listed, value⟩),
        List.append_ne_nil_of_left_ne_nil (List.ne_nil_of_mem (List.mem_map_of_mem listed)) _⟩
    · exact ⟨List.mem_append_right _ (Scope.mem_keywords keyable.solid quoted left),
        List.append_ne_nil_of_right_ne_nil _ (asked left)⟩
  · have cut : parts fields segment = ⟨[], segment⟩ := by rw [parts, if_neg colon]
    rw [keywords, group, cut]
    exact ⟨List.mem_append_right _ (Scope.mem_keywords keyable.solid all word),
      List.append_ne_nil_of_right_ne_nil _ (asked word)⟩

omit names keyable all in
theorem word_of_segments {t : Text} (word : k ++ quotes ∈ Text.parted isEdge t) :
    ∃ segment ∈ segments t, k ++ quotes ∈ Text.words segment := by
  have wider : ∀ c, isAnd c = true → isEdge c = true := by simp +contextual [isEdge]
  rw [Text.parted_refine wider] at word
  obtain ⟨piece, listed, within⟩ := List.mem_flatMap.mp word
  obtain ⟨filled, single, _⟩ := Text.mem_parted.mp listed
  have blanks : Text.parted isEdge piece = Text.words piece := by
    rw [Text.words, Text.parted, Text.splitOn_congr]
    intro c inside
    simp [isEdge, single c inside]
  rw [blanks, ← Text.words_trim] at within
  have some : Text.trim piece ≠ [] := by
    intro empty
    rw [empty] at within
    cases within
  refine ⟨Text.trim piece, List.mem_filter.mpr ⟨List.mem_map_of_mem ?_, by simpa using some⟩, within⟩
  exact (List.mem_filter.mp listed).1

omit names in
theorem word_of_extract {q : Text} (word : k ++ quotes ∈ Text.parted isEdge q) :
    k ++ quotes ∈ Text.parted isEdge (YearRange.extract q).2 := by
  have dashless : '-' ∉ k ++ quotes := by
    intro inside
    rcases List.mem_append.mp inside with dash | quote
    · exact keyable.dashless dash
    · exact absurd (Scope.isQuote_iff.mp (all _ quote)) (by decide)
  obtain ⟨some, solid, before, after, rfl, left, right⟩ := Text.mem_parted.mp word
  obtain ⟨front, back, same, early, late⟩ := blanked_around dashless left right
  rw [YearRange.extract]
  split
  · exact word
  · rw [parted_collapse, same]
    exact Text.mem_parted.mpr ⟨some, solid, front, back, rfl, early, late⟩

theorem keyword_of_standing {q : Text} (word : k ++ quotes ∈ Text.parted isEdge q) :
    ∃ compiled, compile fields q = some compiled ∧ k ∈ compiled.keywords.words := by
  obtain ⟨segment, listed, standing⟩ := word_of_segments (word_of_extract keyable all word)
  obtain ⟨keyword, filled⟩ := keyword_of_word names keyable all standing
  have asked : group fields segment ∈
      ((segments (YearRange.extract q).2).map (group fields)).filter (!·.isEmpty) :=
    List.mem_filter.mpr ⟨List.mem_map_of_mem listed, by simpa using filled⟩
  have made : ∃ plan, Plan.ofGroups ((segments (YearRange.extract q).2).map (group fields))
      (YearRange.extract q).1 = some plan := by
    unfold Plan.ofGroups
    split
    · rename_i none
      rw [none] at asked
      cases asked
    · exact ⟨_, rfl⟩
  obtain ⟨plan, made⟩ := made
  refine ⟨_, Option.map_eq_some_iff.mpr ⟨plan, made, rfl⟩, ?_⟩
  exact WordSet.mem_ofList.mpr (List.mem_flatMap.mpr ⟨segment, listed, keyword⟩)

end Standing

end Query

end CardCatalog
