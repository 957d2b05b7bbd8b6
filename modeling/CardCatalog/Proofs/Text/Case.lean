import CardCatalog.Text.Basic
import CardCatalog.Text.Case

/-!
What lower case does to a text, character by character. A character that moves is
a letter and becomes one, and nothing moves twice, so lower case leaves blanks,
digits and signs where they are. Only the dotted capital I gives two characters,
and only a capital sigma depends on what stands around it.
-/

namespace CardCatalog

namespace Ranges

def spans : Ranges → Nat → Nat → Bool
  | [], _, _ => false
  | (low, high) :: rest, first, last =>
    Nat.ble low first && (Nat.ble last high || spans rest first last)

theorem covers_of_spans {ranges : Ranges} {first last n : Nat}
    (spanned : spans ranges first last = true) (above : first ≤ n) (below : n ≤ last) :
    covers ranges n = true := by
  induction ranges with
  | nil => cases spanned
  | cons range rest ih =>
    obtain ⟨low, high⟩ := range
    rw [spans, Bool.and_eq_true, Bool.or_eq_true, Nat.ble_eq, Nat.ble_eq] at spanned
    obtain ⟨start, here | later⟩ := spanned
    · have inside : ¬ n < low := by omega
      have most : n ≤ high := by omega
      simp [covers, inside, most]
    · have inside : ¬ n < low := by omega
      simp [covers, inside, ih later]

theorem mem_of_covers {ranges : Ranges} {n : Nat} (covered : covers ranges n = true) :
    ∃ range ∈ ranges, range.1 ≤ n ∧ n ≤ range.2 := by
  induction ranges with
  | nil => cases covered
  | cons range rest ih =>
    obtain ⟨low, high⟩ := range
    unfold covers at covered
    split at covered
    · cases covered
    · rcases Bool.or_eq_true_iff.mp covered with here | later
      · exact ⟨(low, high), by simp, Nat.le_of_not_lt ‹_›, of_decide_eq_true here⟩
      · obtain ⟨range, listed, inside⟩ := ih later
        exact ⟨range, List.mem_cons_of_mem _ listed, inside⟩

theorem of_covers {ranges : Ranges} {p : Nat → Bool}
    (each : (ranges.all fun range => (List.range' range.1 (range.2 + 1 - range.1)).all p) = true)
    {n : Nat} (covered : covers ranges n = true) : p n = true := by
  obtain ⟨range, listed, above, below⟩ := mem_of_covers covered
  exact List.all_eq_true.mp (List.all_eq_true.mp each range listed) n
    (List.mem_range'_1.mpr ⟨above, by omega⟩)

end Ranges

namespace Stride

def last (s : Stride) : Nat := s.target + (s.high - s.low)

theorem of_apply {s : Stride} {n m : Nat} (moved : s.apply n = some m) :
    s.low ≤ n ∧ n ≤ s.high ∧ (n - s.low) % s.step = 0 ∧ m = n - s.low + s.target := by
  unfold apply at moved
  split at moved
  · rename_i inside
    cases moved
    exact ⟨inside.1, inside.2.1, inside.2.2, rfl⟩
  · cases moved

/-- Whether every step from the first place to the last one meets a letter. -/
def letters (first last step : Nat) : Bool :=
  Alphabet.alphabetic.spans first last ||
    (List.range (last - first + 1)).all fun i =>
      i % step != 0 || Alphabet.alphabetic.covers (first + i)

theorem covers_of_letters {first last step i : Nat} (met : letters first last step = true)
    (inside : first + i ≤ last) (even : i % step = 0) :
    Alphabet.alphabetic.covers (first + i) = true := by
  rcases Bool.or_eq_true_iff.mp met with spanned | each
  · exact Ranges.covers_of_spans spanned (Nat.le_add_right first i) inside
  · have here := List.all_eq_true.mp each i (List.mem_range.mpr (by omega))
    simpa [even] using here

/-- Letters move to letters, none of them among the signs and digits of ASCII. -/
def betweenLetters (s : Stride) : Bool :=
  letters s.low s.high s.step && letters s.target s.last s.step &&
    Nat.ble 58 s.low && Nat.ble 58 s.target &&
    (Nat.blt s.last 0xD800 || Nat.blt 0xDFFF s.target && Nat.blt s.last 0x110000)

theorem code_of_apply {s : Stride} {n m : Nat} (between : s.betweenLetters = true)
    (moved : s.apply n = some m) : (Char.ofNat m).toNat = m := by
  simp only [betweenLetters, Bool.and_eq_true, Bool.or_eq_true, Nat.blt_eq] at between
  have valid := between.2
  rw [last] at valid
  obtain ⟨above, below, _, place⟩ := of_apply moved
  have proper : m.isValidChar := by
    unfold Nat.isValidChar
    omega
  rw [Char.ofNat, dif_pos proper]
  rfl

theorem letters_of_apply {s : Stride} {n m : Nat} (between : s.betweenLetters = true)
    (moved : s.apply n = some m) :
    (Alphabet.alphabetic.covers n = true ∧ 58 ≤ n) ∧
      Alphabet.alphabetic.covers m = true ∧ 58 ≤ m := by
  obtain ⟨above, below, even, place⟩ := of_apply moved
  simp only [betweenLetters, Bool.and_eq_true, Nat.ble_eq] at between
  obtain ⟨⟨⟨⟨start, stop⟩, low⟩, target⟩, _⟩ := between
  have most : s.target + (n - s.low) ≤ s.last := by
    rw [last]
    omega
  have first := covers_of_letters start (i := n - s.low) (by omega) even
  have second := covers_of_letters stop most even
  have here : s.low + (n - s.low) = n := by omega
  have same : s.target + (n - s.low) = m := by omega
  rw [here] at first
  rw [same] at second
  exact ⟨⟨first, by omega⟩, second, by omega⟩

/-- What the one moves is out of reach of the other: beyond either of its ends, or at
the places between those that it moves. -/
def apart (s other : Stride) : Bool :=
  Nat.blt s.last other.low || Nat.blt other.high s.target ||
    (Nat.beq s.step 2 || Nat.beq s.low s.high) && Nat.beq other.step 2 &&
      Nat.beq ((s.target + other.low) % 2) 1

theorem apply_of_apart {s other : Stride} (distinct : apart s other = true) {n m : Nat}
    (moved : s.apply n = some m) : other.apply m = none := by
  obtain ⟨above, below, even, rfl⟩ := of_apply moved
  simp only [apart, Bool.or_eq_true, Bool.and_eq_true, Nat.blt_eq, Nat.beq_eq] at distinct
  unfold last at distinct
  rw [apply, if_neg]
  rintro ⟨low, high, again⟩
  rcases distinct with (before | behind) | ⟨⟨two | single, other⟩, odd⟩
  · omega
  · omega
  · rw [two] at even
    rw [other] at again
    omega
  · rw [other] at again
    omega

theorem move_cases (table : List Stride) (c : Char) :
    move table c = c ∨ ∃ s ∈ table, ∃ m, s.apply c.toNat = some m ∧ move table c = Char.ofNat m := by
  unfold move
  cases found : table.findSome? (·.apply c.toNat) with
  | none => exact .inl rfl
  | some m =>
    obtain ⟨s, listed, moved⟩ := List.exists_of_findSome?_eq_some found
    exact .inr ⟨s, listed, m, moved, rfl⟩

end Stride

namespace Text

theorem lower_betweenLetters : CaseTable.lower.all Stride.betweenLetters = true := by
  decide +kernel

theorem lower_apart :
    (CaseTable.lower.all fun s => CaseTable.lower.all s.apart) = true := by
  decide +kernel

/-- A character in lower case, but for the dotted capital I. -/
def small (c : Char) : Char := Stride.move CaseTable.lower c

theorem lowerChar_dotted : lowerChar 'İ' = ['i', '\u0307'] := if_pos rfl

theorem lowerChar_eq {c : Char} (plain : c ≠ 'İ') : lowerChar c = [small c] := if_neg plain

theorem small_code {s : Stride} {c : Char} {m : Nat} (listed : s ∈ CaseTable.lower)
    (moved : s.apply c.toNat = some m) (there : small c = Char.ofNat m) : (small c).toNat = m := by
  have between := List.all_eq_true.mp lower_betweenLetters s listed
  rw [there, Stride.code_of_apply between moved]

/-- What moves is a letter and becomes a letter that does not move. -/
theorem small_cases (c : Char) : small c = c ∨
    (Alphabet.alphabetic.has c = true ∧ 58 ≤ c.toNat) ∧
      (Alphabet.alphabetic.has (small c) = true ∧ 58 ≤ (small c).toNat) ∧
      small (small c) = small c := by
  rcases Stride.move_cases CaseTable.lower c with same | ⟨s, listed, m, moved, there⟩
  · exact .inl same
  · right
    have code := small_code listed moved there
    have between := List.all_eq_true.mp lower_betweenLetters s listed
    have stays := List.all_eq_true.mp (List.all_eq_true.mp lower_apart s listed)
    obtain ⟨first, second⟩ := Stride.letters_of_apply between moved
    rw [← code] at second
    refine ⟨first, second, ?_⟩
    rcases Stride.move_cases CaseTable.lower (small c) with still | ⟨other, among, n, again, _⟩
    · exact still
    · rw [code, Stride.apply_of_apart (stays other among) moved] at again
      cases again

theorem small_small (c : Char) : small (small c) = small c := by
  rcases small_cases c with same | ⟨_, _, still⟩
  · rw [same, same]
  · exact still

-- A class without letters does not see lower case.
theorem small_class {p : Char → Bool}
    (others : ∀ c, p c = true → Alphabet.alphabetic.has c = false ∨ c.toNat < 58) (c : Char) :
    p (small c) = p c := by
  rcases small_cases c with same | ⟨⟨first, high⟩, ⟨second, high'⟩, _⟩
  · rw [same]
  · have neither : ∀ d, Alphabet.alphabetic.has d = true → 58 ≤ d.toNat → p d = false := by
      intro d letter above
      cases member : p d with
      | false => rfl
      | true =>
        rcases others d member with none | low
        · rw [letter] at none
          cases none
        · omega
    rw [neither _ first high, neither _ second high']

theorem isAlphanumeric_small (c : Char) : isAlphanumeric (small c) = isAlphanumeric c := by
  rcases small_cases c with same | ⟨⟨first, _⟩, ⟨second, _⟩, _⟩
  · rw [same]
  · simp [isAlphanumeric, first, second]

theorem isAlphanumeric_of_blank {c : Char} (blank : isBlank c = true) :
    isAlphanumeric c = false := by
  have none := Ranges.of_covers (p := fun n => !(Alphabet.alphabetic.covers n ||
    Alphabet.decimalDigit.covers n || Alphabet.otherNumber.covers n)) (by decide +kernel) blank
  simpa [isAlphanumeric, Ranges.has] using none

theorem solid_of_alphanumeric {c : Char} (letter : isAlphanumeric c = true) : isBlank c = false := by
  cases blank : isBlank c with
  | false => rfl
  | true =>
    rw [isAlphanumeric_of_blank blank] at letter
    cases letter

theorem isWordChar_of_blank {c : Char} (blank : isBlank c = true) : isWordChar c = false := by
  have none := Ranges.of_covers (p := fun n => !(Alphabet.alphabetic.covers n ||
    Alphabet.mark.covers n || Alphabet.decimalDigit.covers n || Alphabet.connector.covers n ||
    Alphabet.joiner.covers n)) (by decide +kernel) blank
  simp only [Bool.not_eq_true', Bool.or_eq_false_iff] at none
  simp [isWordChar, Ranges.has, none]

theorem alphabetic_of_blank {c : Char} (blank : isBlank c = true) :
    Alphabet.alphabetic.has c = false := by
  have neither := isAlphanumeric_of_blank blank
  simp only [isAlphanumeric, Bool.or_eq_false_iff] at neither
  exact neither.1.1

theorem isBlank_small (c : Char) : isBlank (small c) = isBlank c :=
  small_class (fun _ blank => .inl (alphabetic_of_blank blank)) c

theorem isDigit_small (c : Char) : isDigit (small c) = isDigit c := by
  apply small_class
  intro d digit
  right
  have most : d ≤ '9' := of_decide_eq_true (Bool.and_eq_true_iff.mp digit).2
  exact Nat.lt_succ_of_le (Char.le_def.mp most)

theorem small_eq_iff {sign : Char} (low : sign.toNat < 58) (c : Char) :
    small c = sign ↔ c = sign := by
  have same := small_class (p := fun d => d == sign) (fun d here => .inr (beq_iff_eq.mp here ▸ low)) c
  rw [Bool.eq_iff_iff, beq_iff_eq, beq_iff_eq] at same
  exact same

theorem dotted_of_small {c : Char} (dotted : small c = 'İ') : c = 'İ' := by
  have clear : (CaseTable.lower.all (·.apart ⟨0x130, 0x130, 2, 0x130⟩)) = true := by
    decide +kernel
  rcases Stride.move_cases CaseTable.lower c with same | ⟨s, listed, m, moved, there⟩
  · exact same.symm.trans dotted
  · have code := small_code listed moved there
    rw [dotted] at code
    have unmoved := Stride.apply_of_apart (List.all_eq_true.mp clear s listed) moved
    rw [← code] at unmoved
    cases unmoved

theorem lowerEach_eq_map {t : Text} (plain : 'İ' ∉ t) : lowerEach t = t.map small := by
  induction t with
  | nil => rfl
  | cons c rest ih =>
    have here : c ≠ 'İ' := by
      rintro rfl
      exact plain (by simp)
    have later := ih fun inside => plain (List.mem_cons_of_mem c inside)
    rw [lowerEach, List.flatMap_cons, lowerChar_eq here, ← lowerEach, later]
    rfl

section Fold

theorem fold_betweenLetters : CaseTable.fold.all Stride.betweenLetters = true := by
  decide +kernel

theorem foldChar_cases (c : Char) : foldChar c = c ∨
    Alphabet.alphabetic.has c = true ∧ Alphabet.alphabetic.has (foldChar c) = true := by
  unfold foldChar
  split
  · exact .inl rfl
  · rcases Stride.move_cases CaseTable.fold c with same | ⟨s, listed, m, moved, there⟩
    · exact .inl same
    · right
      have between := List.all_eq_true.mp fold_betweenLetters s listed
      obtain ⟨first, second⟩ := Stride.letters_of_apply between moved
      rw [there]
      refine ⟨first.1, ?_⟩
      rw [Ranges.has, Stride.code_of_apply between moved]
      exact second.1

theorem sameLetter_of_not_letter {c d : Char} (other : Alphabet.alphabetic.has d = false)
    (same : sameLetter c d = true) : c = d := by
  have stays : foldChar d = d := by
    rcases foldChar_cases d with same | ⟨letter, _⟩
    · exact same
    · rw [other] at letter
      cases letter
  rw [sameLetter, beq_iff_eq, stays] at same
  rcases foldChar_cases c with here | ⟨_, letter⟩
  · exact here.symm.trans same
  · rw [same, other] at letter
    cases letter

end Fold

/-- Lower case does not change the character, whatever stands around it. -/
structure Settled (c : Char) : Prop where
  plain : c ≠ 'Σ'
  same : lowerChar c = [c]

instance : DecidablePred Settled := fun c =>
  decidable_of_iff (c ≠ 'Σ' ∧ lowerChar c = [c])
    ⟨fun ⟨plain, same⟩ => ⟨plain, same⟩, fun ⟨plain, same⟩ => ⟨plain, same⟩⟩

theorem settled_of_mem_lowerChar {c d : Char} (member : d ∈ lowerChar c) : Settled d := by
  by_cases dotted : c = 'İ'
  · subst dotted
    simp only [lowerChar_dotted, List.mem_cons, List.not_mem_nil, or_false] at member
    rcases member with rfl | rfl
    · exact ⟨by decide, by decide +kernel⟩
    · exact ⟨by decide, by decide +kernel⟩
  · rw [lowerChar_eq dotted, List.mem_singleton] at member
    subst member
    constructor
    · intro sigma
      have again := small_small c
      rw [sigma] at again
      exact absurd again (by decide +kernel)
    · rw [lowerChar_eq fun again => dotted (dotted_of_small again), small_small]

theorem lowerAfter_settled {k : Text} (settled : ∀ c ∈ k, Settled c) (u r : Text) :
    lowerAfter u (k ++ r) = k ++ lowerAfter (k.reverse ++ u) r := by
  induction k generalizing u with
  | nil => rfl
  | cons c rest ih =>
    have here := settled c (by simp)
    have later := ih (fun d member => settled d (List.mem_cons_of_mem c member)) (c :: u)
    rw [List.cons_append, lowerAfter, if_neg here.plain, here.same, later]
    simp

theorem lower_settled {t : Text} (settled : ∀ c ∈ t, Settled c) : lower t = t := by
  have whole := lowerAfter_settled settled [] []
  simpa [lower, lowerAfter] using whole

/-- Nothing changes when it is put into lower case again. -/
theorem settled_of_mem_lower {t : Text} {c : Char} (member : c ∈ lower t) : Settled c := by
  suffices all : ∀ before, c ∈ lowerAfter before t → Settled c from all [] member
  clear member
  induction t with
  | nil =>
    intro before member
    cases member
  | cons d t ih =>
    intro before member
    rw [lowerAfter] at member
    rcases List.mem_append.mp member with here | later
    · split at here
      · rw [List.mem_singleton.mp here]
        split
        · decide +kernel
        · decide +kernel
      · exact settled_of_mem_lowerChar here
    · exact ih _ later

theorem lowerAfter_append (u x y : Text) :
    ∃ z, lowerAfter u (x ++ y) = z ++ lowerAfter (x.reverse ++ u) y := by
  induction x generalizing u with
  | nil => exact ⟨[], rfl⟩
  | cons c rest ih =>
    obtain ⟨z, later⟩ := ih (c :: u)
    rw [List.cons_append, lowerAfter, later, List.reverse_cons, List.append_assoc, ← List.append_assoc]
    exact ⟨_, rfl⟩

section Sigma

/-- A character that is not looked through and not cased hides all behind it. -/
structure Bar (c : Char) : Prop where
  seen : CaseTable.ignorable.has c = false
  uncased : CaseTable.cased.has c = false

theorem quote_bar : Bar '"' := by
  constructor <;> decide +kernel

theorem meetsCased_bar {c : Char} (bar : Bar c) (t r : Text) :
    meetsCased (t ++ c :: r) = meetsCased t := by
  induction t with
  | nil => simp [meetsCased, bar.seen, bar.uncased]
  | cons d rest ih =>
    cases through : CaseTable.ignorable.has d with
    | true => simpa [meetsCased, through] using ih
    | false => simp [meetsCased, through]

theorem lowerAfter_bars {a b : Char} (front : Bar a) (back : Bar b) (before u t r : Text) :
    lowerAfter (u ++ a :: before) (t ++ b :: r) =
      lowerAfter u t ++ lowerAfter (t.reverse ++ (u ++ a :: before)) (b :: r) := by
  induction t generalizing u with
  | nil => rfl
  | cons c rest ih =>
    have next := ih (c :: u)
    rw [List.cons_append] at next
    rw [List.cons_append, lowerAfter, lowerAfter, meetsCased_bar front, meetsCased_bar back, next]
    simp

theorem lower_quoted (t : Text) : lower ('"' :: t ++ ['"']) = '"' :: lower t ++ ['"'] := by
  have quote : lowerChar '"' = ['"'] := by decide +kernel
  have inside := lowerAfter_bars quote_bar quote_bar [] [] t []
  have last : ∀ u, lowerAfter u ['"'] = ['"'] := by
    intro u
    simp [lowerAfter, quote]
  rw [List.nil_append, last] at inside
  rw [lower, List.cons_append, lowerAfter, inside]
  simp [quote, lower]

end Sigma

end Text

end CardCatalog
