import CardCatalog.Proofs.Query.Conjunction
import CardCatalog.Proofs.Query.WellFormed

/-!
Which reference numbers of a query stay whole. The years are taken out first, wherever four
digits, a hyphen and four digits stand, so a number is one phrase unless two of its parts
that are next to each other are that long. What is left of such a number is not the number.
-/

namespace CardCatalog

namespace Query

open YearRange (extract)

section Parts

variable {x y z : Text} {parts : List Text}

theorem fourDigits_start (digits : ∀ c ∈ y, Text.isDigit c = true)
    (stop : ∀ c ∈ z.head?, c = '-') :
    (∃ last, FourDigits last ∧ last <+: y ++ z) ↔ 4 ≤ y.length := by
  constructor
  · rintro ⟨last, ⟨four, all⟩, start⟩
    by_contra short
    have shorter : y.length ≤ last.length := by omega
    obtain ⟨more, rfl⟩ := List.prefix_of_prefix_length_le (List.prefix_append y z) start shorter
    rw [List.prefix_append_right_inj] at start
    cases more with
    | nil =>
      rw [List.append_nil] at four
      omega
    | cons c more =>
      obtain ⟨rest, rfl⟩ := start
      have digit := all c (by simp)
      rw [stop c rfl] at digit
      cases digit
  · intro long
    refine ⟨y.take 4, ⟨by simpa using long, fun c member => ?_⟩, ?_⟩
    · exact digits c (List.mem_of_mem_take member)
    · exact (List.take_prefix 4 y).trans (List.prefix_append y z)

-- A range reaches over the first hyphen or stands behind it.
theorem hasYears_dash (digits : ∀ c ∈ x, Text.isDigit c = true) {r : Text} :
    HasYears (x ++ '-' :: r) ↔
      (4 ≤ x.length ∧ ∃ last, FourDigits last ∧ last <+: r) ∨ HasYears r := by
  constructor
  · rintro ⟨first, last, four, other, within⟩
    have behind (later : first ++ '-' :: last <:+: r) : HasYears r :=
      ⟨first, last, four, other, later⟩
    -- the digits in front of the first hyphen are known, so a range at the start is cut there
    have here {x : Text} (digits : ∀ c ∈ x, Text.isDigit c = true)
        (start : first ++ '-' :: last <+: x ++ '-' :: r) : x = first ∧ last <+: r := by
      obtain ⟨v, same⟩ := start
      rw [List.append_assoc, List.cons_append] at same
      have cut := congrArg Phrase.digits same
      rw [digits_dash four.2, digits_dash digits] at cut
      subst cut
      exact ⟨rfl, v, (List.cons.inj (List.append_cancel_left same)).2⟩
    induction x with
    | nil =>
      rcases List.infix_cons_iff.mp within with start | later
      · obtain ⟨rfl, _⟩ := here digits start
        cases four.1
      · exact .inr (behind later)
    | cons c x ih =>
      rcases List.infix_cons_iff.mp within with start | later
      · obtain ⟨rfl, rest⟩ := here digits start
        exact .inl ⟨four.1.ge, last, other, rest⟩
      · rcases ih (fun d member => digits d (List.mem_cons_of_mem c member)) later with
          ⟨long, start⟩ | later
        · exact .inl ⟨Nat.le_succ_of_le long, start⟩
        · exact .inr later
  · rintro (⟨long, last, other, rest, rfl⟩ | ⟨first, last, four, other, within⟩)
    · refine ⟨x.drop (x.length - 4), last, ⟨by simp; omega, fun c member => ?_⟩, other,
        x.take (x.length - 4), rest, ?_⟩
      · exact digits c (List.mem_of_mem_drop member)
      · rw [← List.append_assoc, List.take_append_drop]
        simp
    · exact ⟨first, last, four, other, within.trans ⟨x ++ ['-'], [], by simp⟩⟩

theorem digits_of_all (all : ∀ p ∈ parts, p ≠ [] ∧ p.all Text.isDigit = true) :
    ∀ p ∈ parts, Digits p :=
  fun p member => ⟨(all p member).1, List.all_eq_true.mp (all p member).2⟩

theorem reference_joined (digits : ∀ p ∈ parts, Digits p)
    (count : parts.length = 2 ∨ parts.length = 3) : Reference (Text.joined ['-'] parts) := by
  match parts, count with
  | [x, y], _ =>
    have two := Reference.two (digits x (by simp)) (digits y (by simp))
    simpa [Text.joined] using two
  | [x, y, z], _ =>
    have three := Reference.three (digits x (by simp)) (digits y (by simp)) (digits z (by simp))
    simpa [Text.joined] using three

/-- Of two parts next to each other, one is too short for a year. -/
def Narrow (parts : List Text) : Prop := parts.IsChain fun x y => x.length < 4 ∨ y.length < 4

theorem yearless_joined (digits : ∀ p ∈ parts, Digits p) :
    ¬ HasYears (Text.joined ['-'] parts) ↔ Narrow parts := by
  induction parts with
  | nil => simp [Text.joined, hasYears_nil, Narrow]
  | cons x rest ih =>
    cases rest with
    | nil =>
      have plain : ¬ HasYears x := fun years =>
        absurd ((digits x (by simp)).2 '-' (dash_of_years years)) (by decide)
      simp [Text.joined, plain, Narrow]
    | cons y rest =>
      have tail := ih fun p member => digits p (List.mem_cons_of_mem x member)
      have start : (∃ last, FourDigits last ∧ last <+: Text.joined ['-'] (y :: rest)) ↔
          4 ≤ y.length := by
        rw [Text.joined_cons]
        apply fourDigits_start (digits y (by simp)).2
        cases rest <;> simp
      have shape : Text.joined ['-'] (x :: y :: rest) =
          x ++ '-' :: Text.joined ['-'] (y :: rest) := by
        rw [Text.joined_cons_cons, List.append_assoc, List.singleton_append]
      rw [shape, hasYears_dash (digits x (by simp)).2, not_or, tail, start, not_and_or, not_le,
        not_le, Narrow, Narrow, List.isChain_cons_cons]

end Parts

structure PlainWord (w : Text) : Prop where
  filled : w ≠ []
  solid : ∀ c ∈ w, Text.isBlank c = false ∧ Text.isQuote c = false ∧ c ≠ ':' ∧ isAnd c = false
  numberless : ∀ a b, Text.isDigit a = true → Text.isDigit b = true → ¬ [a, '-', b] <:+: w

theorem PlainWord.wellFormed {w : Text} (plain : PlainWord w) : (Item.word w).WellFormed [] := by
  refine .word ⟨plain.filled, fun c member => ?_, plain.numberless, fun n _ start => ?_⟩
    (yearless_of_numberless plain.numberless)
  · obtain ⟨blank, quote, _, sign⟩ := plain.solid c member
    exact ⟨blank, quote, sign⟩
  · exact (plain.solid ':' (start.subset (by simp))).2.2.1 rfl

def amongWords (u v : List Text) (n : Text) : List Item := u.map .word ++ .number n :: v.map .word

section Among

variable {u v : List Text} {n : Text} {fields : SearchFields}

theorem render_among : renderSegment (amongWords u v n) = Text.joined [' '] (u ++ n :: v) := by
  simp [renderSegment, amongWords, Item.render, Function.comp_def]

theorem compile_dated {q : Text} {compiled : Compiled} (years : HasYears q)
    (made : compile fields q = some compiled) :
    compiled.plan.years ≠ none ∧ ∀ leaf ∈ compiled.plan.leaves, ¬ HasYears leaf.text := by
  constructor
  · rw [years_of_compile rfl made]
    intro none
    exact YearRange.yearless_extract q ((YearRange.rest_of_none none).symm ▸ years)
  · intro leaf member
    rw [leaves_of_compile made] at member
    obtain ⟨s, listed, asked⟩ := List.mem_flatMap.mp member
    exact (leaves_of_group (clean_segment listed) asked).2.yearless

theorem compile_free {q : Text} {leaf : Leaf} (years : (extract q).1 = none)
    (solid : ∀ c ∈ q, c ≠ ':' ∧ isAnd c = false) (trimmed : Text.trim q = q)
    (asked : leaf ∈ Phrase.leaves fields.weighted q) :
    ∃ compiled, compile fields q = some compiled ∧ compiled.plan.years = none ∧
      leaf ∈ compiled.plan.leaves := by
  have cut : parts fields q = ⟨[], q⟩ := by
    rw [parts, if_neg]
    intro colon
    exact (solid ':' (by simpa using colon)).1 rfl
  have inside : leaf ∈ (group fields q).flatMap Clause.leaves := by
    rw [group_leaves, cut]
    exact asked
  have filled : q ≠ [] := by
    rintro rfl
    cases asked
  have whole : segments (extract q).2 = [q] := by
    have single := Text.splitOn_eq_self fun c member => (solid c member).2
    rw [YearRange.rest_of_none years, segments, single, List.map_singleton, trimmed,
      List.filter_cons_of_pos (by simpa using filled), List.filter_nil]
  cases made : compile fields q with
  | none =>
    have nothing := compile_eq_none.mp made q (by rw [whole]; exact List.mem_singleton_self q)
    rw [nothing] at inside
    cases inside
  | some compiled =>
    refine ⟨compiled, rfl, (years_of_compile rfl made).trans years, ?_⟩
    rw [leaves_of_compile made, whole, List.flatMap_singleton]
    exact inside

variable (before : ∀ w ∈ u, PlainWord w) (behind : ∀ w ∈ v, PlainWord w)
  (reference : Reference n)
include before behind reference

theorem among_solid {c : Char} (member : c ∈ Text.joined [' '] (u ++ n :: v)) :
    c ≠ ':' ∧ isAnd c = false := by
  rcases Text.mem_joined member with space | ⟨w, listed, inside⟩
  · rw [List.mem_singleton.mp space]
    decide
  · have plain (plain : PlainWord w) : c ≠ ':' ∧ isAnd c = false := (plain.solid c inside).2.2
    rcases List.mem_append.mp listed with front | rest
    · exact plain (before w front)
    · rcases List.mem_cons.mp rest with rfl | back
      · exact (numeral_solid ((reference_numeral reference).2 c inside)).2.2
      · exact plain (behind w back)

theorem wellFormed_among (plain : ¬ HasYears n) : ∀ i ∈ amongWords u v n, i.WellFormed [] := by
  intro i member
  rcases List.mem_append.mp member with front | rest
  · obtain ⟨w, listed, rfl⟩ := List.mem_map.mp front
    exact (before w listed).wellFormed
  · rcases List.mem_cons.mp rest with rfl | back
    · exact .number reference plain
    · obtain ⟨w, listed, rfl⟩ := List.mem_map.mp back
      exact (behind w listed).wellFormed

theorem compile_whole (plain : ¬ HasYears n) (fields : SearchFields) :
    ∃ compiled, compile fields (Text.joined [' '] (u ++ n :: v)) = some compiled ∧
      compiled.plan.years = none ∧ .phrase n fields.weighted ∈ compiled.plan.leaves := by
  have formed := wellFormed_among before behind reference plain
  have solid := @among_solid u v n before behind reference
  have lasting : ∀ i ∈ amongWords u v n, i.years? = none ∧ i.scope? = none := by
    simp [amongWords, Item.years?, Item.scope?, or_imp, forall_and]
  have phrase : .phrase n fields.weighted ∈ leavesOf fields.weighted (amongWords u v n) := by
    apply List.mem_append_left
    exact List.mem_map_of_mem (List.mem_filterMap.mpr ⟨.number n, by simp [amongWords], rfl⟩)
  rw [← render_among] at solid ⊢
  rw [← leaves_segment formed (fun i member => (lasting i member).1)
    fun i member => (lasting i member).2] at phrase
  have trimmed := Text.trim_single (segment_single (by simp) formed)
  have years : (extract (renderSegment (amongWords u v n))).1 = none := by
    have values := @values_render [] [amongWords u v n] (by simpa using formed)
    have none : yearsOf [amongWords u v n] = [] := by
      simpa [yearsOf] using fun i member => (lasting i member).1
    rw [YearRange.years_eq, ← List.head?_nil, ← none, ← values]
    rfl
  exact compile_free years (fun c => solid) trimmed phrase

end Among

/-- What becomes of a reference number among words. -/
theorem compile_number {parts u v : List Text} (digits : ∀ p ∈ parts, Digits p)
    (count : parts.length = 2 ∨ parts.length = 3) (before : ∀ w ∈ u, PlainWord w)
    (behind : ∀ w ∈ v, PlainWord w) (fields : SearchFields) :
    let n := Text.joined ['-'] parts
    let q := Text.joined [' '] (u ++ n :: v)
    (Narrow parts → ∃ compiled, compile fields q = some compiled ∧
      compiled.plan.years = none ∧ .phrase n fields.weighted ∈ compiled.plan.leaves) ∧
    (¬ Narrow parts → ∀ compiled, compile fields q = some compiled →
      compiled.plan.years ≠ none ∧ ∀ leaf ∈ compiled.plan.leaves, leaf.text ≠ n) := by
  intro n q
  have yearless := yearless_joined digits
  constructor
  · intro narrow
    exact compile_whole before behind (reference_joined digits count) (yearless.mpr narrow) fields
  · intro wide compiled made
    have years : HasYears n := not_not.mp fun none => wide (yearless.mp none)
    have inside : n <:+: q := Text.infix_joined (by simp)
    obtain ⟨dated, free⟩ := compile_dated (years.mono inside) made
    exact ⟨dated, fun leaf member same => free leaf member (same ▸ years)⟩

def shelfParts : List Text := ["12", "34567", "890"].map String.toList

theorem compile_number_shelf :
    let n := Text.joined ['-'] shelfParts
    Narrow shelfParts ∧ ∃ compiled,
      compile nameFields (Text.joined [' '] (["akte".toList] ++ n :: ["smid,".toList])) =
        some compiled ∧
      compiled.plan.years = none ∧ .phrase n nameFields.weighted ∈ compiled.plan.leaves := by
  have digits : ∀ p ∈ shelfParts, Digits p := digits_of_all (by decide +kernel)
  have plain {w : Text} (filled : w ≠ []) (dashless : '-' ∉ w)
      (solid : (w.all fun c => !Text.isBlank c && !Text.isQuote c && c ≠ ':' && !isAnd c) = true) :
      PlainWord w := by
    refine ⟨filled, fun c member => ?_, fun a b _ _ inside => dashless (inside.subset (by simp))⟩
    simpa [and_assoc] using List.all_eq_true.mp solid c member
  have before : ∀ w ∈ ["akte".toList], PlainWord w :=
    List.forall_mem_singleton.mpr (plain (by decide) (by decide) (by decide +kernel))
  have behind : ∀ w ∈ ["smid,".toList], PlainWord w :=
    List.forall_mem_singleton.mpr (plain (by decide) (by decide) (by decide +kernel))
  have narrow : Narrow shelfParts := by
    rw [Narrow]
    decide +kernel
  exact ⟨narrow, (compile_number digits (.inr rfl) before behind nameFields).1 narrow⟩

def longNumber : Text := "12345-6789".toList

/-- Four digits of the first part and the second part are taken for years, and what is left
of the number is the digit in front. -/
theorem long_number_broken :
    Reference longNumber ∧
      (∀ first last, FourDigits first → FourDigits last → longNumber ≠ first ++ '-' :: last) ∧
      ∃ compiled, compile nameFields longNumber = some compiled ∧
        compiled.plan.years = some ⟨2345, 6789⟩ ∧
        compiled.plan.leaves.map Leaf.text = ["1".toList] := by
  have digits : ∀ p ∈ ["12345".toList, "6789".toList], Digits p := digits_of_all (by decide +kernel)
  have asked : (compile nameFields longNumber).map
      (fun compiled => (compiled.plan.years, compiled.plan.leaves.map Leaf.text)) =
        some (some ⟨2345, 6789⟩, ["1".toList]) := by
    decide +kernel
  obtain ⟨compiled, made, same⟩ := Option.map_eq_some_iff.mp asked
  obtain ⟨years, texts⟩ := Prod.mk.inj same
  refine ⟨reference_joined digits (.inl rfl), fun first last four other whole => ?_, compiled,
    made, years, texts⟩
  have length := congrArg List.length whole
  rw [List.length_append, List.length_cons, four.1, other.1] at length
  exact absurd length (by decide)

end Query

end CardCatalog
