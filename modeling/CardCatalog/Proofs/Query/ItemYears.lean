import Mathlib.Data.List.Basic
import CardCatalog.Proofs.Query.Item
import CardCatalog.Proofs.Text.Scan

/-!
Taking the years out of a written query. The scan finds the year tokens and
nothing else, and what it leaves falls at each `&` into the segments without
their years.
-/

namespace CardCatalog

namespace Query

section Head

variable {first last w r : Text}

theorem atHead_years (four : FourDigits first) (other : FourDigits last) (r : Text) :
    YearRange.atHead (first ++ '-' :: last ++ r) =
      some ⟨Text.number first, Text.number last⟩ := by
  obtain ⟨short, digits⟩ := four
  obtain ⟨short', digits'⟩ := other
  match first, last, short, short' with
  | [a, b, c, d], [e, f, g, h], _, _ =>
    simp at digits digits'
    simp [YearRange.atHead, digits, digits']

theorem years_of_atHead {t : Text} {range : YearRange} (found : YearRange.atHead t = some range) :
    ∃ first last, FourDigits first ∧ FourDigits last ∧ first ++ '-' :: last <+: t := by
  unfold YearRange.atHead at found
  split at found
  · rename_i a b c d dash e f g h rest
    split at found
    · rename_i all
      simp at all
      refine ⟨[a, b, c, d], [e, f, g, h], ?_, ?_, ?_⟩
      · simp [FourDigits, all]
      · simp [FourDigits, all]
      · simp [all]
    · cases found
  · cases found

theorem atHead_plain (plain : ¬ HasYears w) (ends : Scan.Ends r) :
    YearRange.atHead (w ++ r) = none := by
  cases found : YearRange.atHead (w ++ r) with
  | none => rfl
  | some range =>
    obtain ⟨first, last, four, other, start⟩ := years_of_atHead found
    have solid := space_not_numeral (years_numeral four other)
    have within := Scan.prefix_of_ends ends solid start
    exact absurd ⟨first, last, four, other, within.isInfix⟩ plain

/-- Years do not reach across anything that is no digit and no hyphen. -/
theorem hasYears_split {x y : Text} {c : Char} (other : ¬ (Text.isDigit c = true ∨ c = '-'))
    (years : HasYears (x ++ c :: y)) : HasYears x ∨ HasYears y := by
  obtain ⟨first, last, four, four', within⟩ := years
  have outside : c ∉ first ++ '-' :: last := fun inside =>
    other (years_numeral four four' c inside)
  rcases Scan.infix_split (by simp) outside within with early | late
  · exact .inl ⟨first, last, four, four', early⟩
  · exact .inr ⟨first, last, four, four', late⟩

theorem hasYears_nil : ¬ HasYears [] := by
  rintro ⟨first, last, _, _, within⟩
  simp at within

theorem dash_of_years {t : Text} (years : HasYears t) : '-' ∈ t := by
  obtain ⟨first, last, _, _, within⟩ := years
  exact within.subset (by simp)

theorem short_plain {t : Text} (short : t.length < 9) : ¬ HasYears t := by
  rintro ⟨first, last, four, other, within⟩
  have length := within.length_le
  rw [List.length_append, List.length_cons, four.1, other.1] at length
  omega

theorem quoted_plain {t : Text} (plain : ¬ HasYears t) : ¬ HasYears (Item.quoted t) := by
  intro years
  rcases hasYears_split (by decide) years with early | late
  · rcases hasYears_split (x := []) (by decide) early with none | inside
    · exact hasYears_nil none
    · exact plain inside
  · exact hasYears_nil late

end Head

section Scan

variable {known : List Text}

def yearPieces : Item → List (Piece YearRange)
  | .years first last =>
    [.token ⟨Text.number first, Text.number last⟩ (first ++ '-' :: last)]
  | i => i.render.map .loose

theorem emits_plain {w : Text} (plain : ¬ HasYears w) :
    Scan.Emits YearRange.find w (w.map .loose) := by
  apply Scan.emits_passed
  intro c rest suffix before r ends
  have unfound : ¬ HasYears (c :: rest) := by
    rintro ⟨first, last, four, other, within⟩
    exact plain ⟨first, last, four, other, within.trans suffix.isInfix⟩
  rw [← List.cons_append, YearRange.find, atHead_plain unfound ends]
  rfl

theorem emits_years {first last : Text} (four : FourDigits first) (other : FourDigits last) :
    Scan.Emits YearRange.find (first ++ '-' :: last)
      [.token ⟨Text.number first, Text.number last⟩ (first ++ '-' :: last)] := by
  intro u r _
  apply Scan.behind_token
  · simp
  · rw [YearRange.find, atHead_years four other r]
    simp [four.1, other.1]

theorem find_skips {c : Char} (other : Text.isDigit c = false) (before : Option Char) (r : Text) :
    YearRange.find before (c :: r) = none := by
  rw [YearRange.find, Option.map_eq_none_iff]
  cases found : YearRange.atHead (c :: r) with
  | none => rfl
  | some range =>
    obtain ⟨first, last, ⟨length, digits⟩, _, start⟩ := years_of_atHead found
    cases first with
    | nil => cases length
    | cons d more =>
      have same : d = c := (List.cons_prefix_cons.mp start).1
      rw [← same, digits d (by simp)] at other
      cases other

theorem render_plain {i : Item} (formed : i.WellFormed known) (lasting : i.years? = none) :
    ¬ HasYears i.render := by
  cases formed with
  | scope _ _ quotable plainName plainValue =>
    intro years
    rcases hasYears_split (by decide) years with early | late
    · exact plainName early
    · exact quoted_plain plainValue late
  | phrase _ plain => exact quoted_plain plain
  | number _ plain => exact plain
  | word _ plain => exact plain
  | years _ _ => cases lasting

theorem yearPieces_lasting {i : Item} (lasting : i.years? = none) :
    yearPieces i = i.render.map .loose := by
  cases i with
  | years first last => cases lasting
  | _ => rfl

theorem emits_item {i : Item} (formed : i.WellFormed known) :
    Scan.Emits YearRange.find i.render (yearPieces i) := by
  cases kind : i.years? with
  | none =>
    rw [yearPieces_lasting kind]
    exact emits_plain (render_plain formed kind)
  | some range =>
    cases formed with
    | years four other => exact emits_years four other
    | _ => cases kind

theorem pieces_render {segments : List (List Item)}
    (formed : ∀ items ∈ segments, ∀ i ∈ items, i.WellFormed known) :
    Scan.pieces YearRange.find (render segments) =
      Scan.spaced [' ', '&', ' '] (Scan.spaced [' '] yearPieces) segments := by
  have separator : ∀ c ∈ [' ', '&', ' '], Text.isDigit c = false :=
    Text.forall_of_all (by decide)
  apply Scan.pieces_of_emits
  apply Scan.emits_joined
  · intro c member before r
    exact find_skips (separator c member) before r
  · intro items member
    apply Scan.emits_joined
    · intro c inside before r
      rw [List.mem_singleton.mp inside]
      exact find_skips (by decide) before r
    · intro i inside
      exact emits_item (formed items member i inside)

theorem values_render {segments : List (List Item)}
    (formed : ∀ items ∈ segments, ∀ i ∈ items, i.WellFormed known) :
    Scan.values (Scan.pieces YearRange.find (render segments)) = yearsOf segments := by
  have each (i : Item) : Scan.values (yearPieces i) = i.years?.toList := by
    cases i with
    | years first last => rfl
    | _ => exact Scan.values_loose _
  rw [pieces_render formed, Scan.values_spaced, yearsOf]
  apply congrArg (segments.flatMap ·)
  funext items
  rw [Scan.values_spaced, List.filterMap_eq_flatMap_toList]
  simp only [each]

def remains (i : Item) : Text := if i.years?.isNone then i.render else [' ']

theorem blanked_eq (ps : List (Piece YearRange)) :
    YearRange.blanked ps = ps.flatMap fun p => YearRange.blanked [p] := by
  simp [YearRange.blanked]

theorem blanked_render {segments : List (List Item)}
    (formed : ∀ items ∈ segments, ∀ i ∈ items, i.WellFormed known) :
    YearRange.blanked (Scan.pieces YearRange.find (render segments)) =
      Text.joined [' ', '&', ' '] (segments.map fun items =>
        Text.joined [' '] (items.map remains)) := by
  have each (i : Item) : (yearPieces i).flatMap (fun p => YearRange.blanked [p]) = remains i := by
    cases i with
    | years first last => rfl
    | _ => simp [yearPieces, YearRange.blanked, remains, Item.years?, List.flatMap_map]
  have kept (c : Char) : YearRange.blanked [.loose c] = [c] := rfl
  have inner := @Scan.flatMap_spaced _ _ [' '] yearPieces (fun p => YearRange.blanked [p]) kept
  rw [pieces_render formed, blanked_eq, @Scan.flatMap_spaced _ _ _ _ _ kept]
  simp only [inner, each]

theorem words_remains (items : List Item) :
    (items.map remains).flatMap Text.words =
      ((yearless items).map Item.render).flatMap Text.words := by
  induction items with
  | nil => rfl
  | cons i rest ih =>
    rw [List.map_cons, List.flatMap_cons, ih, remains, yearless, yearless, List.filter_cons]
    cases i.years? with
    | none => rfl
    | some range => rfl

end Scan

end Query

end CardCatalog
