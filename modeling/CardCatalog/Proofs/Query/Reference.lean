import Mathlib.Data.List.Basic
import CardCatalog.Proofs.Query.Item
import CardCatalog.Proofs.Text.Parted
import CardCatalog.Proofs.Text.Scan

/-!
Reference numbers. What is read at a place is the longest reference number that stands
there, if any does, so it is the same in front of everything that could not go on with
it.
-/

namespace CardCatalog

namespace Query

open Phrase (digits reference?)

section Digits

variable {a r t : Text}

theorem digits_split (t : Text) :
    t = digits t ++ t.drop (digits t).length ∧ ∀ c ∈ digits t, Text.isDigit c = true := by
  constructor
  · exact (List.prefix_iff_eq_append.mp (List.takeWhile_prefix Text.isDigit)).symm
  · intro c member
    exact List.all_eq_true.mp List.all_takeWhile c member

theorem digits_ahead (all : ∀ c ∈ a, Text.isDigit c = true) (r : Text) :
    digits (a ++ r) = a ++ digits r := List.takeWhile_append_of_pos all

theorem digits_dash (all : ∀ c ∈ a, Text.isDigit c = true) (r : Text) :
    digits (a ++ '-' :: r) = a := by
  have none : digits ('-' :: r) = [] := rfl
  rw [digits_ahead all, none, List.append_nil]

end Digits

theorem dash_of_reference {m : Text} (reference : Reference m) :
    ∃ a b, Text.isDigit a = true ∧ Text.isDigit b = true ∧ [a, '-', b] <:+: m := by
  have two {x y : Text} (one : Digits x) (other : Digits y) :
      ∃ a b, Text.isDigit a = true ∧ Text.isDigit b = true ∧ [a, '-', b] <:+: x ++ '-' :: y := by
    obtain ⟨init, a, rfl⟩ := List.eq_nil_or_concat' x |>.resolve_left one.1
    obtain ⟨b, rest, rfl⟩ := List.exists_cons_of_ne_nil other.1
    exact ⟨a, b, one.2 a (by simp), other.2 b (by simp), init, rest, by simp⟩
  cases reference with
  | two one other => exact two one other
  | @three x y z one other _ =>
    obtain ⟨a, b, first, second, within⟩ := two one other
    exact ⟨a, b, first, second, within.trans (List.prefix_append _ ('-' :: z)).isInfix⟩

theorem yearless_of_numberless {w : Text}
    (numberless : ∀ a b, Text.isDigit a = true → Text.isDigit b = true → ¬ [a, '-', b] <:+: w) :
    ¬ HasYears w := by
  rintro ⟨first, last, four, other, within⟩
  have digits {t : Text} (four : FourDigits t) : Digits t := by
    refine ⟨?_, four.2⟩
    rintro rfl
    cases four.1
  obtain ⟨a, b, one, two, inside⟩ := dash_of_reference (.two (digits four) (digits other))
  exact numberless a b one two (inside.trans within)

section Longest

variable {t n m r : Text}

theorem reference_of_read (read : reference? t = some n) : Reference n ∧ n <+: t := by
  obtain ⟨split, all⟩ := digits_split t
  simp only [reference?] at read
  split at read
  · rename_i after first behind
    have one : Digits (digits t) := ⟨by simp [first], all⟩
    rw [behind] at split
    obtain ⟨halves, allAfter⟩ := digits_split after
    split at read
    · rename_i last second behind
      have two : Digits (digits after) := ⟨by simp [second], allAfter⟩
      rw [behind] at halves
      obtain ⟨thirds, allLast⟩ := digits_split last
      split at read
      · cases read
        refine ⟨.two one two, '-' :: last, ?_⟩
        calc (digits t ++ '-' :: digits after) ++ '-' :: last
            = digits t ++ '-' :: (digits after ++ '-' :: last) := by simp
          _ = t := by rw [← halves, ← split]
      · rename_i filled
        cases read
        refine ⟨.three one two ⟨filled, allLast⟩, last.drop (digits last).length, ?_⟩
        calc (digits t ++ '-' :: digits after ++ '-' :: digits last) ++ last.drop (digits last).length
            = digits t ++ '-' :: (digits after ++ '-' :: (digits last ++
                last.drop (digits last).length)) := by simp
          _ = t := by rw [← thirds, ← halves, ← split]
    · rename_i second _
      have two : Digits (digits after) := ⟨by simp [second], allAfter⟩
      cases read
      refine ⟨.two one two, after.drop (digits after).length, ?_⟩
      calc (digits t ++ '-' :: digits after) ++ after.drop (digits after).length
          = digits t ++ '-' :: (digits after ++ after.drop (digits after).length) := by simp
        _ = t := by rw [← halves, ← split]
    · cases read
  · cases read

theorem read_two {a after : Text} (one : Digits a) (two : digits after ≠ []) :
    ∃ more, reference? (a ++ '-' :: after) = some (a ++ '-' :: digits after ++ more) := by
  have first := digits_dash one.2 after
  obtain ⟨x, xs, rfl⟩ := List.exists_cons_of_ne_nil one.1
  simp only [reference?, first, List.drop_left]
  split
  · split
    · exact ⟨[], by rw [List.append_nil]⟩
    · exact ⟨_, rfl⟩
  · exact ⟨[], by rw [List.append_nil]⟩
  · rename_i none
    exact absurd none two

theorem read_three {a b last : Text} (one : Digits a) (two : Digits b) (three : digits last ≠ []) :
    reference? (a ++ '-' :: (b ++ '-' :: last)) = some (a ++ '-' :: b ++ '-' :: digits last) := by
  have first := digits_dash one.2 (b ++ '-' :: last)
  have second := digits_dash two.2 last
  obtain ⟨x, xs, rfl⟩ := List.exists_cons_of_ne_nil one.1
  obtain ⟨y, ys, rfl⟩ := List.exists_cons_of_ne_nil two.1
  simp only [reference?, first, second, List.drop_left]

theorem read_of_reference (reference : Reference m) (start : m <+: t) :
    ∃ n, reference? t = some n ∧ m.length ≤ n.length := by
  obtain ⟨r, rfl⟩ := start
  cases reference with
  | @two a b one two =>
    have ahead := digits_ahead two.2 r
    have filled : digits (b ++ r) ≠ [] := by simp [ahead, two.1]
    obtain ⟨more, read⟩ := read_two one filled
    refine ⟨_, by rw [List.append_assoc, List.cons_append, read], ?_⟩
    simp [ahead]
  | @three a b c one two three =>
    have ahead := digits_ahead three.2 r
    have filled : digits (c ++ r) ≠ [] := by simp [ahead, three.1]
    have read := read_three one two filled
    have shape : a ++ '-' :: b ++ '-' :: c ++ r = a ++ '-' :: (b ++ '-' :: (c ++ r)) := by simp
    refine ⟨_, by rw [shape, read], ?_⟩
    simp [ahead]

/-- What is read is the longest number that stands there. -/
theorem reference_eq_some :
    reference? t = some n ↔
      Reference n ∧ n <+: t ∧ ∀ m, Reference m → m <+: t → m.length ≤ n.length := by
  constructor
  · intro read
    obtain ⟨reference, start⟩ := reference_of_read read
    refine ⟨reference, start, fun m other starts => ?_⟩
    obtain ⟨k, again, longer⟩ := read_of_reference other starts
    rw [read] at again
    cases again
    exact longer
  · rintro ⟨reference, start, longest⟩
    obtain ⟨k, read, longer⟩ := read_of_reference reference start
    obtain ⟨other, starts⟩ := reference_of_read read
    have shorter := longest k other starts
    have same := (List.prefix_of_prefix_length_le start starts longer).eq_of_length_le shorter
    rw [read, same]

theorem reference_eq_none : reference? t = none ↔ ∀ m, Reference m → ¬ m <+: t := by
  constructor
  · intro none m reference start
    obtain ⟨n, read, _⟩ := read_of_reference reference start
    rw [none] at read
    cases read
  · intro absent
    cases read : reference? t with
    | none => rfl
    | some n =>
      obtain ⟨reference, start⟩ := reference_of_read read
      exact absurd start (absent n reference)

-- Whatever could not go on with a number does not matter to what is read before it.
theorem reference_append (stop : ∀ c ∈ r.head?, ¬ (Text.isDigit c = true ∨ c = '-')) (t : Text) :
    reference? (t ++ r) = reference? t := by
  have within (m : Text) (reference : Reference m) : m <+: t ++ r ↔ m <+: t := by
    constructor
    · intro start
      cases r with
      | nil => rwa [List.append_nil] at start
      | cons c rest =>
        apply Scan.prefix_before _ start
        intro inside
        exact stop c rfl ((reference_numeral reference).2 c inside)
    · intro start
      exact start.trans (List.prefix_append t r)
  cases read : reference? t with
  | none =>
    rw [reference_eq_none] at read ⊢
    exact fun m reference => mt (within m reference).mp (read m reference)
  | some n =>
    obtain ⟨reference, start, longest⟩ := reference_eq_some.mp read
    refine reference_eq_some.mpr ⟨reference, (within n reference).mpr start, fun m other starts => ?_⟩
    exact longest m other ((within m other).mp starts)

end Longest

end Query

end CardCatalog
