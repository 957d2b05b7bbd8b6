import CardCatalog.Proofs.Query.Content
import CardCatalog.Proofs.Query.Respacing
import CardCatalog.Proofs.Text.Gapped

/-!
What a query is read into has no `&` and no years in it. The years are taken out first
and the segments are cut at every `&`; from then on texts are only cut, gapped and
collapsed, and none of these puts years together that were apart.
-/

namespace CardCatalog

namespace Text

theorem trim_within (t : Text) : trim t <:+: t := by
  obtain ⟨before, after, split, _⟩ := stripped_split isBlank t
  exact ⟨before, after, split.symm⟩

theorem trim_of_ends {t : Text} (first : ∀ c ∈ t.head?, isBlank c = false)
    (last : ∀ c ∈ t.getLast?, isBlank c = false) : trim t = t := by
  have bare := @stripped_between isBlank [] t [] (by simp) first last (by simp)
  rwa [List.nil_append, List.append_nil] at bare

theorem trim_trim (t : Text) : trim (trim t) = trim t :=
  trim_of_ends (stripped_ends isBlank t).1 (stripped_ends isBlank t).2

end Text

namespace Query

theorem HasYears.mono {s t : Text} (years : HasYears s) (within : s <:+: t) : HasYears t := by
  obtain ⟨first, last, four, other, inside⟩ := years
  exact ⟨first, last, four, other, inside.trans within⟩

theorem HasYears.ungapped {s t : Text} (years : HasYears s) (gapped : Text.Gapped t s) :
    HasYears t := by
  obtain ⟨first, last, four, other, inside⟩ := years
  have solid := space_not_numeral (years_numeral four other)
  exact ⟨first, last, four, other, gapped.within solid (by simp) inside⟩

/-- Nothing in the text ends a segment or is read as years. -/
structure Clean (t : Text) : Prop where
  single : ∀ c ∈ t, isAnd c = false
  yearless : ¬ HasYears t

namespace Clean

variable {s t : Text}

theorem within (clean : Clean t) (inside : s <:+: t) : Clean s where
  single := fun c member => clean.single c (inside.subset member)
  yearless := fun years => clean.yearless (years.mono inside)

theorem gapped (clean : Clean t) (gapped : Text.Gapped t s) : Clean s where
  single := fun c member => by
    rcases gapped.mem member with rfl | inside
    · decide
    · exact clean.single c inside
  yearless := fun years => clean.yearless (years.ungapped gapped)

theorem collapse (clean : Clean t) : Clean (Text.collapse t) := by
  rw [← Text.squeeze_trim]
  exact (clean.within (Text.trim_within t)).gapped (Text.gapped_squeeze _)

end Clean

end Query

namespace YearRange

open Query (HasYears)

theorem years_eq (q : Text) : (extract q).1 = (Scan.values (Scan.pieces find q)).head? := by
  rw [extract]
  split
  · rename_i none
    rw [none]
    rfl
  · rename_i range more some
    rw [some]
    rfl

theorem blanked_of_none {q : Text} (none : Scan.values (Scan.pieces find q) = []) :
    blanked (Scan.pieces find q) = q := by
  have kept : ∀ p ∈ Scan.pieces find q, blanked [p] = p.raw := by
    intro p member
    have absent := List.filterMap_eq_nil_iff.mp none p member
    cases p with
    | loose c => rfl
    | token range raw => cases absent
  rw [Query.blanked_eq, List.flatMap_congr kept, Scan.raw_pieces]

theorem rest_cases (q : Text) : (extract q).2 = blanked (Scan.pieces find q) ∨
    (extract q).2 = Text.collapse (blanked (Scan.pieces find q)) := by
  rw [extract]
  split
  · rename_i none
    exact .inl (blanked_of_none none).symm
  · exact .inr rfl

theorem gapped_blanked (q : Text) : Text.Gapped q (blanked (Scan.pieces find q)) := by
  have gapped := Scan.gapped_pieces (g := fun p => blanked [p]) (fun _ => rfl) (fun _ _ => rfl)
    (Scan.pieces find q)
  rwa [Scan.raw_pieces, ← Query.blanked_eq] at gapped

theorem yearless_blanked (q : Text) : ¬ HasYears (blanked (Scan.pieces find q)) := by
  rintro ⟨first, last, four, other, inside⟩
  rw [Query.blanked_eq] at inside
  have solid := Query.space_not_numeral (Query.years_numeral four other)
  refine Scan.not_left (fun c => rfl) (fun _ _ => rfl) (by simp) solid (fun before r => ?_) q inside
  exact ⟨_, 8, by rw [find, Query.atHead_years four other]; rfl⟩

theorem yearless_extract (q : Text) : ¬ HasYears (extract q).2 := by
  rcases rest_cases q with same | same
  · exact same ▸ yearless_blanked q
  · intro years
    rw [same, ← Text.squeeze_trim] at years
    exact yearless_blanked q ((years.ungapped (Text.gapped_squeeze _)).mono (Text.trim_within _))

theorem mem_extract {q : Text} {c : Char} (member : c ∈ (extract q).2) : c = ' ' ∨ c ∈ q := by
  rcases rest_cases q with same | same
  · rw [same] at member
    exact (gapped_blanked q).mem member
  · rw [same, ← Text.squeeze_trim] at member
    rcases (Text.gapped_squeeze _).mem member with space | inside
    · exact .inl space
    · exact (gapped_blanked q).mem ((Text.trim_within _).subset inside)

end YearRange

namespace Query

theorem segment_within {t s : Text} (member : s ∈ segments t) :
    (∀ c ∈ s, isAnd c = false) ∧ s <:+: t := by
  obtain ⟨piece, among, rfl⟩ := List.mem_map.mp (List.mem_filter.mp member).1
  obtain ⟨before, after, split, _⟩ := Text.splitOn_between isAnd among
  have inside := Text.trim_within piece
  refine ⟨fun c kept => Text.mem_splitOn among c (inside.subset kept), inside.trans ?_⟩
  exact ⟨before, after, split.symm⟩

theorem clean_segment {q s : Text} (member : s ∈ segments (YearRange.extract q).2) : Clean s := by
  obtain ⟨single, inside⟩ := segment_within member
  exact ⟨single, fun years => YearRange.yearless_extract q (years.mono inside)⟩

end Query

namespace Scope

variable {known : List Text} {u r t : Text} {ps : List (Piece Mark)}

theorem gapped_reads (reads : Reads known u r ps) : Text.Gapped r (ps.flatMap leftoverOf) := by
  induction reads with
  | done u => exact .done
  | @loose u r c ps _ _ _ _ ih => exact .kept c ih
  | quotation _ _ ih => exact (Text.Gapped.refl _).append ih
  | @scope u lead name raw r ps _ _ _ _ ih =>
    rw [List.flatMap_cons, leftoverOf]
    split
    · have back : Text.Gapped (raw ++ r) (raw ++ ' ' :: ps.flatMap leftoverOf) :=
        (Text.Gapped.refl raw).append (.blanked [] ih)
      have whole := Text.Gapped.blanked (lead ++ (name ++ [':'])) back
      simpa using whole
    · exact .blanked _ ih

theorem clean_leftover (clean : Query.Clean t) : Query.Clean (split known t).leftover :=
  (clean.gapped (gapped_reads (reads_pieces known t))).collapse

/-- A scope that is made of a text was read at some place of it: there the name is the
longest that fits, and the value stands behind its colon. -/
structure ReadAt (known : List Text) (t : Text) (scope : FieldScope) (raw r : Text) : Prop where
  there : scope.field ++ ':' :: raw ++ r <:+ t
  named : nameAt known (scope.field ++ ':' :: raw ++ r) = some scope.field
  valued : rawValue (raw ++ r) = raw
  other : scope.field ≠ everyField
  filled : scope.value ≠ []
  value : scope.value = inner raw

theorem readAt_of_reads (reads : Reads known u t ps) {scope : FieldScope}
    (member : scope ∈ (Scan.values ps).filterMap scopeOf) :
    ∃ raw r, ReadAt known t scope raw r := by
  induction reads with
  | done u => cases member
  | loose _ _ _ _ ih =>
    obtain ⟨raw, r, found⟩ := ih member
    exact ⟨raw, r, { found with there := found.there.trans (List.suffix_cons _ _) }⟩
  | quotation _ _ ih =>
    obtain ⟨raw, r, found⟩ := ih member
    exact ⟨raw, r, { found with there := found.there.trans (List.suffix_append _ _) }⟩
  | @scope u lead name raw r ps _ named value _ ih =>
    rw [values_token] at member
    rcases List.mem_append.mp member with here | later
    · rw [scopeOf] at here
      split at here
      · cases here
      · rename_i own
        obtain ⟨other, filled⟩ := not_or.mp own
        cases List.mem_singleton.mp here
        refine ⟨raw, r, ⟨lead, ?_⟩, named, value, other, filled, rfl⟩
        simp
    · obtain ⟨raw, r, found⟩ := ih later
      exact ⟨raw, r, { found with there := found.there.trans (List.suffix_append _ _) }⟩

theorem inner_within (raw : Text) : inner raw <:+: raw := by
  obtain ⟨before, after, split, _⟩ := Text.stripped_split Text.isQuote raw
  exact (Text.trim_within _).trans ⟨before, after, split.symm⟩

theorem ReadAt.value_within (found : ReadAt known t scope raw r) : scope.value <:+: t := by
  have within : raw <:+: scope.field ++ ':' :: raw ++ r := ⟨scope.field ++ [':'], r, by simp⟩
  exact found.value ▸ (inner_within raw).trans (within.trans found.there.isInfix)

end Scope

end CardCatalog
