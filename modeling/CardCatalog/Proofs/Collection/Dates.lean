import CardCatalog.Collection.DocumentType
import CardCatalog.Proofs.Link
import CardCatalog.Proofs.Query.WellFormed

/-!
Dates that begin with a year. A numeral is written by one number only, so the first four
characters of a date are the numeral of its year or there is no year in it.
-/

namespace CardCatalog

namespace Text

theorem digitChar_digitValue {c : Char} (digit : isDigit c = true) :
    (digitValue c).digitChar = c ∧ digitValue c < 10 := by
  have written : ∀ n < 10, n.digitChar = Char.ofNat (n + 48) := by decide
  simp only [isDigit, Bool.and_eq_true, decide_eq_true_eq] at digit
  have low : 48 ≤ c.toNat := Char.le_def.mp digit.1
  have high : c.toNat ≤ 57 := Char.le_def.mp digit.2
  have value : digitValue c = c.toNat - 48 := rfl
  refine ⟨?_, by omega⟩
  rw [value, written _ (by omega), Nat.sub_add_cancel low, Char.ofNat_toNat]

theorem number_concat (t : Text) (c : Char) : number (t ++ [c]) = 10 * number t + digitValue c := by
  rw [number, List.foldl_append]
  rfl

theorem natural_number {t : Text} (digits : ∀ c ∈ t, isDigit c = true) (filled : t ≠ [])
    (leads : t.head? ≠ some '0') : natural (number t) = t := by
  induction t using List.reverseRecOn with
  | nil => exact absurd rfl filled
  | append_singleton t c ih =>
    obtain ⟨back, small⟩ := digitChar_digitValue (digits c (by simp))
    have one : natural (digitValue c) = [c] := by
      rw [natural, Nat.toDigits_of_lt_base small, back]
    by_cases empty : t = []
    · have lone : number [c] = digitValue c := by simp [number]
      rw [empty, List.nil_append, lone, one]
    · have front := ih (fun d member => digits d (by simp [member])) empty
        (by rwa [List.head?_append_of_ne_nil t empty] at leads)
      have positive : 0 < number t := by
        rw [Nat.pos_iff_ne_zero]
        intro zero
        rw [zero] at front
        exact leads (by rw [← front]; rfl)
      rw [number_concat, natural, ← Nat.toDigits_append_toDigits (by decide) positive small]
      exact congrArg₂ (· ++ ·) front one

end Text

/-- The date begins with the numeral of its year, which lies between 1000 and 2000. -/
def BeginsWith (date : Text) (year : Int) : Prop :=
  ∃ n : Nat, year = n ∧ 1000 < n ∧ n < 2000 ∧ date.take 4 = Text.natural n

theorem yearOfDate_eq_some {date : Text} {year : Int} :
    yearOfDate date = some year ↔ BeginsWith date year := by
  constructor
  · intro found
    rw [yearOfDate] at found
    split at found
    · rename_i four
      obtain ⟨length, all⟩ := four
      dsimp only at found
      split at found
      · rename_i within
        have digits : ∀ c ∈ date.take 4, Text.isDigit c = true := List.all_eq_true.mp all
        refine ⟨_, (Option.some.inj found).symm, within.1, within.2,
          (Text.natural_number digits ?_ ?_).symm⟩
        · exact List.ne_nil_of_length_eq_add_one length
        · -- after a zero only three digits would be left
          intro zero
          obtain ⟨rest, split⟩ := List.head?_eq_some_iff.mp zero
          rw [split] at length digits within
          have below := Text.number_lt fun c member => digits c (List.mem_cons_of_mem '0' member)
          have three : rest.length = 3 := Nat.succ.inj length
          rw [three] at below
          have same : Text.number ('0' :: rest) = Text.number rest := rfl
          omega
      · cases found
    · cases found
  · rintro ⟨n, rfl, low, high, written⟩
    have digits : ∀ c ∈ date.take 4, Text.isDigit c = true := by
      rw [written]
      exact fun c => Text.isDigit_of_mem_natural
    have number : Text.number (date.take 4) = n := by rw [written, Text.number_natural]
    have long : (date.take 4).length = 4 := by
      have below := Text.number_lt digits
      rw [number] at below
      by_contra other
      -- three digits do not reach a thousand
      have short : (date.take 4).length ≤ 3 := by
        have most := List.length_take_le 4 date
        omega
      have power := Nat.pow_le_pow_right (n := 10) (by decide) short
      omega
    have checked : (date.take 4).length = 4 ∧ (date.take 4).all Text.isDigit = true :=
      ⟨long, List.all_eq_true.mpr digits⟩
    have within : 1000 < Text.number (date.take 4) ∧ Text.number (date.take 4) < 2000 := by
      rw [number]
      exact ⟨low, high⟩
    rw [yearOfDate, if_pos checked]
    dsimp only
    rw [if_pos within, number]

end CardCatalog
