import Mathlib.Data.List.Basic
import CardCatalog.Proofs.Query.Phrases

/-!
Reading the free text of a written segment. Phrases and reference numbers are
tokens, each as a whole; a word holds neither, and nothing starts in one word and
ends in the next.
-/

namespace CardCatalog

namespace Query

open Phrase (reference?)

section Reference

variable {w r : Text}

theorem ends_not_numeral (ends : Scan.Ends r) :
    ∀ c ∈ r.head?, ¬ (Text.isDigit c = true ∨ c = '-') := by
  intro c head
  rw [ends c head]
  decide

theorem reference_reads (reference : Reference w) (ends : Scan.Ends r) :
    reference? (w ++ r) = some w := by
  rw [reference_append (ends_not_numeral ends)]
  exact reference_eq_some.mpr ⟨reference, List.prefix_rfl, fun m _ start => start.length_le⟩

theorem reference_none
    (numberless : ∀ a b, Text.isDigit a = true → Text.isDigit b = true → ¬ [a, '-', b] <:+: w)
    (ends : Scan.Ends r) : reference? (w ++ r) = none := by
  rw [reference_append (ends_not_numeral ends)]
  apply reference_eq_none.mpr
  intro m reference start
  obtain ⟨a, b, first, second, within⟩ := dash_of_reference reference
  exact numberless a b first second (within.trans start.isInfix)

end Reference

def phrasePieces : Item → List (Piece Text)
  | .phrase text => [.token text (Item.quoted text)]
  | .number text => [.token text text]
  | i => i.render.map .loose

section Emits

variable {known : List Text} {w : Text}

theorem find_phrase {text r : Text} (quotable : Quotable text) (before : Option Char) :
    Phrase.find before (Item.quoted text ++ r) = some (text, (Item.quoted text).length) := by
  have free : Scope.Unquoted text := fun c member => (quotable.clean c member).1
  have found := Phrase.find_quotation free r before
  rwa [Text.trim_single quotable.spaced.single] at found

theorem emits_number (reference : Reference w) : Scan.Emits Phrase.find w [.token w w] := by
  intro u r ends
  apply Scan.behind_token (reference_numeral reference).1
  exact Phrase.find_number (reference_reads reference ends) _

theorem emits_word (free : ∀ c ∈ w, Text.isQuote c = false)
    (numberless : ∀ a b, Text.isDigit a = true → Text.isDigit b = true → ¬ [a, '-', b] <:+: w) :
    Scan.Emits Phrase.find w (w.map .loose) := by
  apply Scan.emits_passed
  intro c rest suffix before r ends
  have unread : reference? (c :: rest ++ r) = none := by
    apply reference_none _ ends
    intro a b first second within
    exact numberless a b first second (within.trans suffix.isInfix)
  exact Phrase.find_eq_none (.inl (free c (suffix.subset (by simp)))) unread before

theorem emits_free {i : Item} (formed : i.WellFormed known) (lasting : i.years? = none)
    (unscoped : i.scope? = none) : Scan.Emits Phrase.find i.render (phrasePieces i) := by
  cases formed with
  | scope _ _ _ _ _ => cases unscoped
  | @phrase text quotable _ =>
    intro u r _
    apply Scan.behind_token
    · simp [Item.render, Item.quoted]
    · exact find_phrase quotable _
  | number reference _ => exact emits_number reference
  | word bare _ => exact emits_word (fun c member => (bare.clean c member).2.1) bare.numberless
  | years _ _ => cases lasting

end Emits

section Leaves

variable {known : List Text} {items : List Item} {weighted : List WeightedField}

theorem pieces_free (formed : ∀ i ∈ items, i.WellFormed known)
    (lasting : ∀ i ∈ items, i.years? = none) (unscoped : ∀ i ∈ items, i.scope? = none) :
    Scan.pieces Phrase.find (renderSegment items) = Scan.spaced [' '] phrasePieces items := by
  apply Scan.pieces_of_emits
  apply Scan.emits_joined
  · intro c member before r
    rw [List.mem_singleton.mp member]
    exact Phrase.find_eq_none (.inl (by decide)) rfl before
  · intro i inside
    exact emits_free (formed i inside) (lasting i inside) (unscoped i inside)

theorem values_free (items : List Item) :
    Scan.values (Scan.spaced [' '] phrasePieces items) = items.filterMap Item.phrase? := by
  rw [Scan.values_spaced, List.filterMap_eq_flatMap_toList]
  apply List.flatMap_congr
  intro i member
  cases i with
  | phrase text => rfl
  | number text => rfl
  | _ => exact Scan.values_loose _

theorem phrases_filled (formed : ∀ i ∈ items, i.WellFormed known) :
    ∀ t ∈ items.filterMap Item.phrase?, t ≠ [] := by
  intro t member
  obtain ⟨i, inside, same⟩ := List.mem_filterMap.mp member
  cases formed i inside with
  | phrase quotable _ =>
    cases same
    exact quotable.spaced.filled
  | number reference _ =>
    cases same
    exact (reference_numeral reference).1
  | _ => cases same

def gap : Piece Text → Text
  | .loose c => [c]
  | .token _ _ => [' ']

theorem leftover_free (formed : ∀ i ∈ items, i.WellFormed known)
    (lasting : ∀ i ∈ items, i.years? = none) (unscoped : ∀ i ∈ items, i.scope? = none) :
    Phrase.leftover (Scan.spaced [' '] phrasePieces items) =
      Text.joined [' '] (items.filterMap Item.word?) := by
  have flat (ps : List (Piece Text)) : Phrase.leftover ps = Text.collapse (ps.flatMap gap) := rfl
  have loose (t : Text) : (t.map .loose).flatMap gap = t := by
    simp [List.flatMap_map, gap]
  have each : ∀ i ∈ items, Text.words ((phrasePieces i).flatMap gap) = i.word?.toList := by
    intro i member
    cases formed i member with
    | @scope name value _ _ _ _ _ => cases unscoped _ member
    | phrase _ _ => rfl
    | number _ _ => rfl
    | @word text bare _ =>
      rw [phrasePieces, loose]
      · exact Text.words_self bare.filled fun c inside => (bare.clean c inside).1
      all_goals simp
    | years _ _ => cases lasting _ member
  rw [flat, Scan.flatMap_spaced fun c => rfl, Text.collapse, Text.words_joined_texts,
    List.flatMap_map, List.flatMap_congr each, List.filterMap_eq_flatMap_toList]

theorem leaves_segment (formed : ∀ i ∈ items, i.WellFormed known)
    (lasting : ∀ i ∈ items, i.years? = none) (unscoped : ∀ i ∈ items, i.scope? = none) :
    Phrase.leaves weighted (renderSegment items) = leavesOf weighted items := by
  have kept : (items.filterMap Item.phrase?).filter (!·.isEmpty) =
      items.filterMap Item.phrase? := by
    apply List.filter_eq_self.mpr
    intro t member
    simpa using phrases_filled formed t member
  have space : Text.isAlphanumeric ' ' = false := by decide +kernel
  rw [Phrase.leaves, pieces_free formed lasting unscoped]
  simp only [values_free items, leftover_free formed lasting unscoped, kept,
    Text.any_joined space]
  rw [leavesOf, fuzzyLeaf]
  split
  · rfl
  · rw [List.append_nil]

end Leaves

end Query

end CardCatalog
