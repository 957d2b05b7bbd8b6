import CardCatalog.Proofs.Query.Clean
import CardCatalog.Proofs.Text.Division

/-!
What taking the years out of a text comes to. The text is divided at its years from left to
right; the first of them are the range, and the words of what lies between them all are the
rest. Years that overlap with others in front of them are none.
-/

namespace CardCatalog

namespace YearRange

open Query (FourDigits HasYears)

variable {q rest first last : Text} {range : Option YearRange} {d : Division}

def Years : Occurrence := fun _ m _ =>
  ∃ first last, FourDigits first ∧ FourDigits last ∧ m = first ++ '-' :: last

def ofYears (m : Text) : YearRange := ⟨Text.number (m.take 4), Text.number (m.drop 5)⟩

theorem ofYears_eq (four : FourDigits first) (last : Text) :
    ofYears (first ++ '-' :: last) = ⟨Text.number first, Text.number last⟩ := by
  have long : (first ++ ['-']).length = 5 := by simp [four.1]
  have behind : (first ++ '-' :: last).drop 5 = last := by
    rw [List.append_cons, List.drop_left' long]
  rw [ofYears, List.take_left' four.1, behind]

theorem finds_years : Division.Finds find Years ofYears where
  filled := by
    rintro _ _ _ ⟨first, last, _, _, rfl⟩
    simp
  exact := by
    intro u t found
    rw [find, Option.map_eq_some_iff]
    constructor
    · rintro ⟨range, head, rfl⟩
      obtain ⟨first, last, four, other, r, rfl⟩ := Query.years_of_atHead head
      rw [Query.atHead_years four other] at head
      cases head
      refine ⟨_, r, rfl, ⟨first, last, four, other, rfl⟩, ?_⟩
      rw [ofYears_eq four]
      simp [four.1, other.1]
    · rintro ⟨_, r, rfl, ⟨first, last, four, other, rfl⟩, rfl⟩
      refine ⟨_, Query.atHead_years four other r, ?_⟩
      rw [ofYears_eq four]
      simp [four.1, other.1]

/-- What is to be taken out of a text, and what is to be left of it. -/
inductive Extracted (q : Text) : Option YearRange → Text → Prop where
  | none (plain : ¬ HasYears q) : Extracted q none q
  | some {d : Division} {s first last : Text} {more : List (Text × Text)}
      (divided : Division.Leftmost Years [] q d) (four : FourDigits first) (other : FourDigits last)
      (leftmost : d.found = (s, first ++ '-' :: last) :: more) :
      Extracted q (some ⟨Text.number first, Text.number last⟩)
        (Text.collapse (d.written fun _ => [' ']))

theorem extract_divided (divided : Division.Leftmost Years [] q d) :
    extract q = match d.found with
      | [] => (none, q)
      | cut :: _ => (some (ofYears cut.2), Text.collapse (d.written fun _ => [' '])) := by
  have scanned : Scan.pieces find q = d.pieces ofYears := finds_years.pieces_of_leftmost divided
  have left : blanked (d.pieces ofYears) = d.written fun _ => [' '] := by
    rw [Query.blanked_eq]
    exact Division.flatMap_pieces (fun _ => rfl) (fun _ => rfl) d
  rw [extract, scanned, Division.values_pieces, left]
  cases d.found with
  | nil => rfl
  | cons cut more => rfl

theorem divided_of_plain (plain : ¬ HasYears q) : Division.Leftmost Years [] q ⟨[], q⟩ := by
  apply Division.Leftmost.of_absent
  rintro x _ z rfl ⟨first, last, four, other, rfl⟩
  exact plain ⟨first, last, four, other, x, z, rfl⟩

theorem plain_of_divided (divided : Division.Leftmost Years [] q d) (none : d.found = []) :
    ¬ HasYears q := by
  rintro ⟨first, last, four, other, x, z, split⟩
  exact divided.absent (by simp) none split.symm ⟨first, last, four, other, rfl⟩

theorem extract_of_extracted (extracted : Extracted q range rest) : extract q = (range, rest) := by
  cases extracted with
  | none plain => rw [extract_divided (divided_of_plain plain)]
  | some divided four _ leftmost =>
    rw [extract_divided divided, leftmost]
    exact congrArg (fun range => (some range, _)) (ofYears_eq four _)

theorem exists_extracted (q : Text) : ∃ range rest, Extracted q range rest := by
  obtain ⟨d, divided, _⟩ := finds_years.division [] q
  cases found : d.found with
  | nil => exact ⟨_, _, .none (plain_of_divided divided found)⟩
  | cons cut more =>
    obtain ⟨s, m⟩ := cut
    have member : (s, m) ∈ d.found := by simp [found]
    obtain ⟨_, _, first, last, four, other, rfl⟩ := divided.occurs_of_mem member
    exact ⟨_, _, .some divided four other found⟩

/-- The range is made of the leftmost years, if there are any, and what is left of the text
has no years in it: taking them out once more leaves it as it is. -/
theorem extract_exact (q : Text) :
    (∀ range rest, extract q = (range, rest) ↔ Extracted q range rest) ∧
      ¬ HasYears (extract q).2 ∧ extract (extract q).2 = (none, (extract q).2) := by
  have plain := yearless_extract q
  refine ⟨fun range rest => ⟨fun same => ?_, extract_of_extracted⟩, plain,
    extract_of_extracted (.none plain)⟩
  obtain ⟨_, _, extracted⟩ := exists_extracted q
  cases (extract_of_extracted extracted).symm.trans same
  exact extracted

example : extract "jan1500-1510-1520".toList = (some ⟨1500, 1510⟩, "jan -1520".toList) := by
  decide +kernel

end YearRange

end CardCatalog
