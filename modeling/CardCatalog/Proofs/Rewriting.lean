import Mathlib.Data.List.Forall2
import CardCatalog.Proofs.Text.Division
import CardCatalog.Suggestion

/-!
Where a candidate is written. The query is divided at the whole words in it that are the
word to be corrected, whatever their case, and behind each of these, and nowhere else, the
candidate is written as it stands. So a rewritten query without what was added is the query.
-/

namespace CardCatalog

theorem Division.length_written {write : Text → Text} {more : Nat}
    (longer : ∀ m, (write m).length = m.length + more) (d : Division) :
    (d.written write).length = (d.written id).length + d.found.length * more := by
  obtain ⟨found, rest⟩ := d
  induction found with
  | nil => simp [written]
  | cons cut found ih =>
    simp only [written, List.flatMap_cons, List.length_append, List.length_cons, longer, id,
      Nat.succ_mul] at ih ⊢
    omega

namespace Correction

section Letters

variable {word written t : Text}

theorem length_of_sameLetters (same : sameLetters word written = true) :
    word.length = written.length := by
  induction word generalizing written with
  | nil =>
    cases written with
    | nil => rfl
    | cons _ _ => cases same
  | cons c rest ih =>
    cases written with
    | nil => cases same
    | cons d more =>
      rw [List.length_cons, List.length_cons, ih (Bool.and_eq_true_iff.mp same).2]

theorem eq_nil_iff_of_sameLetters (same : sameLetters word written = true) :
    word = [] ↔ written = [] := by
  rw [← List.length_eq_zero_iff, ← List.length_eq_zero_iff, length_of_sameLetters same]

theorem sameLetters_mem {c : Char} (same : sameLetters word written = true) (inside : c ∈ written) :
    ∃ d ∈ word, Text.sameLetter d c = true := by
  induction word generalizing written with
  | nil =>
    cases written with
    | nil => cases inside
    | cons _ _ => cases same
  | cons d rest ih =>
    cases written with
    | nil => cases same
    | cons e more =>
      obtain ⟨first, others⟩ := Bool.and_eq_true_iff.mp same
      rcases List.mem_cons.mp inside with rfl | later
      · exact ⟨d, by simp, first⟩
      · obtain ⟨found, among, equal⟩ := ih others later
        exact ⟨found, List.mem_cons_of_mem d among, equal⟩

theorem find_eq_some {before : Option Char} {found : Unit × Nat} :
    find word before t = some found ↔ found = ((), word.length) ∧ ∃ written r, t = written ++ r ∧
      sameLetters word written = true ∧ boundary before written.head? = true ∧
      boundary written.getLast? r.head? = true := by
  rw [find]
  constructor
  · intro here
    split at here
    · rename_i checked
      simp only [Bool.and_eq_true] at checked
      cases here
      exact ⟨rfl, t.take word.length, t.drop word.length, (List.take_append_drop _ t).symm,
        checked.1.1, checked.1.2, checked.2⟩
    · cases here
  · rintro ⟨rfl, written, r, rfl, same, front, back⟩
    have long := length_of_sameLetters same
    simp [long, same, front, back]

end Letters

section Occurrences

variable {word u m r q : Text}

/-- A word begins or ends here: a word character stands on one side and none on the other. -/
def Boundary (u r : Text) : Prop :=
  Xor (∃ c ∈ u.getLast?, Text.isWordChar c = true) (∃ c ∈ r.head?, Text.isWordChar c = true)

/-- The word, in whatever case, with a boundary at both of its ends. -/
structure Occurs (word u m r : Text) : Prop where
  same : List.Forall₂ (fun a b => Text.foldChar a = Text.foldChar b) word m
  front : Boundary u (m ++ r)
  back : Boundary (u ++ m) r

theorem isWord_iff {c : Option Char} : isWord c = true ↔ ∃ d ∈ c, Text.isWordChar d = true := by
  rw [isWord, Option.any_eq_true]
  rfl

theorem boundary_iff : boundary u.getLast? r.head? = true ↔ Boundary u r := by
  rw [Boundary, ← isWord_iff, ← isWord_iff, boundary]
  cases isWord u.getLast? <;> cases isWord r.head? <;> simp [Xor]

theorem sameLetters_iff :
    sameLetters word m = true ↔
      List.Forall₂ (fun a b => Text.foldChar a = Text.foldChar b) word m := by
  induction word generalizing m with
  | nil => cases m <;> simp [sameLetters]
  | cons c word ih =>
    cases m with
    | nil => simp [sameLetters]
    | cons d m => simp [sameLetters, Text.sameLetter, ih]

theorem occurs_iff (filled : m ≠ []) :
    Occurs word u m r ↔ sameLetters word m = true ∧ boundary u.getLast? m.head? = true ∧
      boundary m.getLast? r.head? = true := by
  have first : (m ++ r).head? = m.head? := List.head?_append_of_ne_nil m filled
  have last : (u ++ m).getLast? = m.getLast? := List.getLast?_append_of_ne_nil u filled
  rw [sameLetters_iff, ← first, boundary_iff, ← last, boundary_iff]
  exact ⟨fun ⟨same, front, back⟩ => ⟨same, front, back⟩,
    fun ⟨same, front, back⟩ => ⟨same, front, back⟩⟩

theorem finds_word (filled : word ≠ []) : Division.Finds (find word) (Occurs word) fun _ => () := by
  have full {m : Text} (same : sameLetters word m = true) : m ≠ [] :=
    mt (eq_nil_iff_of_sameLetters same).mpr filled
  refine ⟨fun occurs => full (sameLetters_iff.mpr occurs.same), ?_⟩
  intro u t found
  rw [find_eq_some]
  constructor
  · rintro ⟨rfl, m, r, rfl, same, front, back⟩
    refine ⟨m, r, rfl, (occurs_iff (full same)).mpr ⟨same, front, back⟩, ?_⟩
    rw [length_of_sameLetters same]
  · rintro ⟨m, r, rfl, occurs, rfl⟩
    have same := sameLetters_iff.mpr occurs.same
    have parts := (occurs_iff (full same)).mp occurs
    exact ⟨by rw [length_of_sameLetters same], m, r, rfl, parts⟩

def added (candidate : Text) : Piece Unit → Text
  | .loose c => [c]
  | .token _ raw => raw ++ ' ' :: candidate

theorem addBehind_eq (filled : word ≠ []) (candidate q : Text) :
    addBehind word candidate q = (Scan.pieces (find word) q).flatMap (added candidate) := by
  rw [addBehind, if_neg (by simpa using filled)]
  congr 1

theorem addBehind_divided (filled : word ≠ []) (candidate q : Text) :
    ∃ d, Division.Leftmost (Occurs word) [] q d ∧
      (∀ e, Division.Leftmost (Occurs word) [] q e → e = d) ∧
      addBehind word candidate q = d.written (· ++ ' ' :: candidate) := by
  obtain ⟨d, divided, only, pieces⟩ := (finds_word filled).division [] q
  replace pieces : Scan.pieces (find word) q = d.pieces fun _ => () := pieces
  refine ⟨d, divided, only, ?_⟩
  rw [addBehind_eq filled, pieces]
  exact Division.flatMap_pieces (fun _ => rfl) (fun _ => rfl) d

theorem addBehind_eq_self (filled : word ≠ []) (candidate q : Text) :
    addBehind word candidate q = q ↔ ∀ u m r, q = u ++ m ++ r → ¬ Occurs word u m r := by
  obtain ⟨d, divided, only, written⟩ := addBehind_divided filled candidate q
  constructor
  · intro same u m r split occurs
    have longer (m : Text) :
        (m ++ ' ' :: candidate).length = m.length + (candidate.length + 1) := by simp
    have length := Division.length_written longer d
    rw [← written, same, divided.text] at length
    have zero : d.found.length * (candidate.length + 1) = 0 := by omega
    rcases Nat.mul_eq_zero.mp zero with none | some
    · have missing := divided.absent ((finds_word filled).filled occurs)
        (List.length_eq_zero_iff.mp none) split
      exact missing occurs
    · omega
  · intro absent
    rw [written, ← only _ (.of_absent absent)]
    rfl

/-- The candidate is written behind all the whole words there are, met from left to right,
and all else stays. -/
theorem addBehind_exact (filled : word ≠ []) (candidate q : Text) :
    (∃ d, Division.Leftmost (Occurs word) [] q d ∧
      (∀ e, Division.Leftmost (Occurs word) [] q e → e = d) ∧ d.written id = q ∧
      addBehind word candidate q = d.written (· ++ ' ' :: candidate)) ∧
    (addBehind word candidate q = q ↔ ∀ u m r, q = u ++ m ++ r → ¬ Occurs word u m r) := by
  obtain ⟨d, divided, only, written⟩ := addBehind_divided filled candidate q
  exact ⟨⟨d, divided, only, divided.text, written⟩, addBehind_eq_self filled candidate q⟩

/-- What overlaps with a word in front of it is none, and nothing in a candidate is a sign. -/
theorem addBehind_exact_overlap : "an-an".toList ≠ [] ∧
    ∃ d, Division.Leftmost (Occurs "an-an".toList) [] "An-an-an an-an".toList d ∧
      (∀ e, Division.Leftmost (Occurs "an-an".toList) [] "An-an-an an-an".toList e → e = d) ∧
      d.written id = "An-an-an an-an".toList ∧
      d.written (· ++ ' ' :: "$0".toList) = "An-an $0-an an-an $0".toList := by
  have filled : "an-an".toList ≠ [] := by decide
  obtain ⟨⟨d, divided, only, whole, rewritten⟩, _⟩ :=
    addBehind_exact filled "$0".toList "An-an-an an-an".toList
  have made : addBehind "an-an".toList "$0".toList "An-an-an an-an".toList =
      "An-an $0-an an-an $0".toList := by
    decide +kernel
  exact ⟨filled, d, divided, only, whole, rewritten.symm.trans made⟩

end Occurrences

end Correction

end CardCatalog
