import CardCatalog.Proofs.Query.ItemPhrases
import CardCatalog.Proofs.Query.Markers
import CardCatalog.Proofs.Query.Phrases
import CardCatalog.Proofs.Query.Quotation
import CardCatalog.Proofs.Text.Spacing

/-!
Free text put together from parts, and written with other blanks. A blank between two
texts keeps their phrases apart if the quotations of the first are closed. Which
blanks there are between the words matters to no phrase.
-/

namespace CardCatalog

namespace Phrase

open Scope (Unquoted Outside)
open Query (gap reference_append reference_eq_some reference_numeral)

/-- The phrases of a text, the blank ones with them. -/
def phrases (t : Text) : List Text := Scan.values (Scan.pieces find t)

/-- The words of a text beside its phrases. -/
def loose (t : Text) : Text := leftover (Scan.pieces find t)

theorem leaves_eq (fields : List WeightedField) (t : Text) :
    leaves fields t = ((phrases t).filter (!·.isEmpty)).map (Leaf.phrase · fields) ++
      if (loose t).any Text.isAlphanumeric then [.fuzzy (loose t) fields] else [] := by
  have cut : leaves fields t = if (loose t).any Text.isAlphanumeric then
      ((phrases t).filter (!·.isEmpty)).map (Leaf.phrase · fields) ++ [.fuzzy (loose t) fields]
    else ((phrases t).filter (!·.isEmpty)).map (Leaf.phrase · fields) := rfl
  rw [cut]
  split
  · rfl
  · rw [List.append_nil]

section Append

variable {x y t : Text} {b : Char} {ps qs : List (Piece Text)}

theorem not_numeral_of_blank (blank : Text.isBlank b = true) :
    ¬ (Text.isDigit b = true ∨ b = '-') := by
  intro numeral
  rw [(Query.numeral_solid numeral).1] at blank
  cases blank

theorem unquoted_of_read {n r : Text} (read : reference? (n ++ r) = some n) : Unquoted n := by
  intro c inside
  have numeral := (reference_numeral (reference_eq_some.mp read).1).2
  exact (Query.numeral_solid (numeral c inside)).2.1

/-- The text in front has its quotations closed, or nothing behind it closes one. -/
theorem reads_append (blank : Text.isBlank b = true) (front : Reads x ps)
    (outside : Outside x (b :: y)) (back : Reads y qs) :
    Reads (x ++ b :: y) (ps ++ .loose b :: qs) := by
  have stop : ∀ c ∈ (b :: y).head?, ¬ (Text.isDigit c = true ∨ c = '-') := by
    intro c head
    cases head
    exact not_numeral_of_blank blank
  induction front with
  | done =>
    have unread : reference? (b :: y) = none := reference_append stop []
    exact .loose (.inl (Scope.not_quote_of_blank blank)) unread back
  | @loose r c ps unquoted unread rest ih =>
    have read : reference? (c :: r ++ b :: y) = none := (reference_append stop (c :: r)).trans unread
    obtain ⟨whole, next⟩ := Scope.outside_passed unquoted outside
    exact .loose whole read (ih next)
  | @quotation inside r ps free rest ih =>
    rw [List.append_assoc]
    exact .quotation free (ih (Scope.outside_behind (Scope.paired_quotation free) outside))
  | @number n r ps read rest ih =>
    have next := Scope.outside_behind (Scope.paired_unquoted (unquoted_of_read read)) outside
    rw [List.append_assoc]
    apply Reads.number _ (ih next)
    rw [← List.append_assoc, reference_append stop, read]

theorem pieces_append (blank : Text.isBlank b = true) (outside : Outside x (b :: y)) :
    Scan.pieces find (x ++ b :: y) = Scan.pieces find x ++ .loose b :: Scan.pieces find y :=
  pieces_of_reads (reads_append blank (reads_pieces x) outside (reads_pieces y))

theorem phrases_append (blank : Text.isBlank b = true) (outside : Outside x (b :: y)) :
    phrases (x ++ b :: y) = phrases x ++ phrases y := by
  rw [phrases, pieces_append blank outside, Scan.values, List.filterMap_append]
  rfl

theorem leftover_eq (ps : List (Piece Text)) :
    leftover ps = Text.collapse (ps.flatMap gap) := rfl

theorem words_loose (t : Text) :
    Text.words (loose t) = Text.words ((Scan.pieces find t).flatMap gap) :=
  Text.words_collapse _

theorem words_loose_append (blank : Text.isBlank b = true) (outside : Outside x (b :: y)) :
    Text.words (loose (x ++ b :: y)) = Text.words (loose x) ++ Text.words (loose y) := by
  rw [words_loose, pieces_append blank outside, List.flatMap_append, List.flatMap_cons, gap,
    List.singleton_append, Text.words_append blank, ← words_loose, ← words_loose]

end Append

section Squeeze

variable {s t : Text} {ps : List (Piece Text)}

-- A number ends before the first blank, and up to there a text stays as it is.
theorem reference_squeeze (t : Text) : reference? (Text.squeeze t) = reference? t := by
  obtain ⟨w, rest, split, same, before, behind⟩ := Text.squeeze_cut t
  rw [same, reference_append fun c head => not_numeral_of_blank (behind c head), split,
    reference_append fun c head => not_numeral_of_blank (before c head)]

theorem unquoted_squeeze (free : Unquoted t) : Unquoted (Text.squeeze t) := by
  apply Text.free_squeeze _ free
  intro c quote
  rw [Scope.isQuote_iff.mp quote]
  exact Text.quote_solid '"' (by simp)

theorem reads_blank {b : Char} {r : Text} (blank : Text.isBlank b = true) (reads : Reads (b :: r) ps) :
    ∃ qs, ps = .loose b :: qs := by
  generalize shape : b :: r = t at reads
  cases reads with
  | done => cases shape
  | loose _ _ _ =>
    cases shape
    exact ⟨_, rfl⟩
  | quotation _ _ =>
    cases shape
    exact absurd blank (by decide +kernel)
  | number read _ =>
    obtain ⟨filled, numeral⟩ := reference_numeral (reference_eq_some.mp read).1
    obtain ⟨c, more, rfl⟩ := List.exists_cons_of_ne_nil filled
    cases shape
    exact absurd (numeral b (by simp)) (not_numeral_of_blank blank)

theorem reads_squeeze (reads : Reads t ps) :
    ∃ qs, Reads (Text.squeeze t) qs ∧
      (Scan.values qs).map Text.words = (Scan.values ps).map Text.words ∧
      Text.squeeze (qs.flatMap gap) = Text.squeeze (ps.flatMap gap) := by
  induction reads with
  | done => exact ⟨[], .done, rfl, rfl⟩
  | @loose r c ps unquoted unread rest ih =>
    obtain ⟨qs, again, values, gaps⟩ := ih
    have read : reference? (Text.squeeze (c :: r)) = none := (reference_squeeze _).trans unread
    have after : Text.squeeze ((Piece.loose c :: ps).flatMap gap) =
        Text.push c (Text.squeeze (qs.flatMap gap)) := congrArg (Text.push c) gaps.symm
    rw [after]
    rw [Text.squeeze_cons] at read ⊢
    cases blank : Text.isBlank c with
    | false =>
      rw [Text.push_solid blank] at read ⊢
      exact ⟨_, .loose (unquoted.imp id unquoted_squeeze) read again, values, rfl⟩
    | true =>
      rw [Text.push_blank blank (Text.squeeze (qs.flatMap gap))]
      rcases Text.push_cases blank (Text.squeeze r) with ⟨more, shape, same⟩ | space
      · -- the blank joins the one behind it, and so it does between the phrases
        rw [same]
        refine ⟨qs, again, values, ?_⟩
        rw [shape] at again
        obtain ⟨rs, rfl⟩ := reads_blank Text.space_blank again
        exact (Text.push_push _).symm
      · rw [space] at read ⊢
        exact ⟨_, .loose (.inl (Scope.not_quote_of_blank Text.space_blank)) read again, values, rfl⟩
  | @quotation inside r ps free rest ih =>
    obtain ⟨qs, again, values, gaps⟩ := ih
    have solid : Text.isBlank '"' = false := Text.quote_solid '"' (by simp)
    have shape : Text.squeeze ('"' :: inside ++ ['"'] ++ r) =
        '"' :: Text.squeeze inside ++ ['"'] ++ Text.squeeze r := by
      rw [List.append_assoc, List.singleton_append, Text.squeeze_append solid, Text.squeeze_cons,
        Text.push_solid solid]
      simp
    have value : Text.words (Text.trim (Text.squeeze inside)) = Text.words (Text.trim inside) := by
      rw [Text.words_trim, Text.words_trim, Text.words_squeeze]
    rw [shape]
    refine ⟨_, .quotation (unquoted_squeeze free) again, ?_, congrArg (Text.push ' ') gaps⟩
    exact congrArg₂ List.cons value values
  | @number n r ps read rest ih =>
    obtain ⟨qs, again, values, gaps⟩ := ih
    have numeral := (reference_numeral (reference_eq_some.mp read).1).2
    have shape : Text.squeeze (n ++ r) = n ++ Text.squeeze r :=
      Text.squeeze_solid (fun c member => (Query.numeral_solid (numeral c member)).1) r
    have still : reference? (n ++ Text.squeeze r) = some n := by
      rw [← shape, reference_squeeze, read]
    rw [shape]
    refine ⟨_, .number still again, ?_, congrArg (Text.push ' ') gaps⟩
    exact congrArg (List.cons _) values

theorem phrases_squeeze (t : Text) :
    (phrases (Text.squeeze t)).map Text.words = (phrases t).map Text.words ∧
      Text.words (loose (Text.squeeze t)) = Text.words (loose t) := by
  obtain ⟨qs, reads, values, gaps⟩ := reads_squeeze (reads_pieces t)
  rw [words_loose, words_loose, phrases, phrases, pieces_of_reads reads]
  exact ⟨values, Text.words_of_squeeze gaps⟩

theorem phrases_framed (t : Text) :
    phrases (' ' :: (t ++ [' '])) = phrases t ∧
      Text.words (loose (' ' :: (t ++ [' ']))) = Text.words (loose t) := by
  have front : Outside [] (' ' :: (t ++ [' '])) := .inl rfl
  have back : Outside t [' '] := .inr (by simp [Unquoted, Scope.not_quote_of_blank Text.space_blank])
  have nothing : phrases [] = [] ∧ loose [] = [] := ⟨rfl, rfl⟩
  constructor
  · rw [← List.nil_append (' ' :: _), phrases_append Text.space_blank front,
      phrases_append Text.space_blank back, nothing.1]
    simp
  · rw [← List.nil_append (' ' :: _), words_loose_append Text.space_blank front,
      words_loose_append Text.space_blank back, nothing.2]
    simp [Text.words, Text.splitOn]

theorem phrases_of_words (same : Text.words s = Text.words t) :
    (phrases s).map Text.words = (phrases t).map Text.words ∧ loose s = loose t := by
  have squeezed := Text.squeeze_of_words same
  have (u : Text) := phrases_squeeze (' ' :: (u ++ [' ']))
  have words : Text.words (loose s) = Text.words (loose t) := by
    rw [← (phrases_framed s).2, ← (phrases_squeeze _).2, squeezed, (phrases_squeeze _).2,
      (phrases_framed t).2]
  constructor
  · rw [← (phrases_framed s).1, ← (phrases_squeeze _).1, squeezed, (phrases_squeeze _).1,
      (phrases_framed t).1]
  · rw [words_loose, words_loose] at words
    exact congrArg (Text.joined [' ']) words

end Squeeze

end Phrase

end CardCatalog
