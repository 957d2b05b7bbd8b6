import CardCatalog.Proofs.Query.Keyword
import CardCatalog.Proofs.Rewriting

/-!
What a suggestion writes. Where the word that is to be corrected stands by itself in
a query, the candidate comes to stand behind it by itself, whatever else the rewriting
does.
-/

namespace CardCatalog

namespace Correction

theorem edge_signs {c : Char} (ends : Query.isEdge c = true ∨ Text.isQuote c = true) :
    Text.isWordChar c = false ∧ Alphabet.alphabetic.has c = false := by
  rcases ends with edge | quote
  · rcases Bool.or_eq_true_iff.mp edge with blank | sign
    · exact ⟨Text.isWordChar_of_blank blank, Text.alphabetic_of_blank blank⟩
    · rw [of_decide_eq_true sign]
      decide +kernel
  · rw [Scope.isQuote_iff.mp quote]
    decide +kernel

structure Written (word written : Text) : Prop where
  same : sameLetters word written = true
  first : isWord written.head? = true
  last : isWord written.getLast? = true

/-- The word is written where it stands by itself: what is in front of it belongs to no
word, nor to this one, and only quotes come before the next edge. -/
def Stands (word q : Text) : Prop :=
  ∃ before written after, q = before ++ written ++ after ∧ Written word written ∧
    isWord before.getLast? = false ∧
    (∀ c ∈ before.getLast?, ∀ d ∈ word, Text.sameLetter d c = false) ∧
    Text.Closes Query.isEdge after

section Added

variable {word written candidate q r : Text}

theorem written_ne_nil (ofWord : Written word written) : written ≠ [] := by
  rintro rfl
  cases ofWord.first

theorem word_ne_nil (ofWord : Written word written) : word ≠ [] :=
  mt (eq_nil_iff_of_sameLetters ofWord.same).mp (written_ne_nil ofWord)

theorem occurs_written {u : Text} (ofWord : Written word written)
    (outside : isWord u.getLast? = false) (closes : Text.Closes Query.isEdge r) :
    Occurs word u written r := by
  have ended : isWord r.head? = false := by
    cases head : r.head? with
    | none => rfl
    | some c => exact (edge_signs (Text.closes_head closes head)).1
  refine (occurs_iff (written_ne_nil ofWord)).mpr ⟨ofWord.same, ?_, ?_⟩
  · simp [boundary, outside, ofWord.first]
  · simp [boundary, ended, ofWord.last]

theorem not_find_sign (ofWord : Written word written) {c : Char}
    (ends : Query.isEdge c = true ∨ Text.isQuote c = true) (before : Option Char) :
    find word before (c :: r) = none := by
  cases found : find word before (c :: r) with
  | none => rfl
  | some pair =>
    obtain ⟨_, other, rest, shape, same, _⟩ := find_eq_some.mp found
    obtain ⟨unworded, unlettered⟩ := edge_signs ends
    have whole := ofWord.same
    have first := ofWord.first
    cases word with
    | nil => exact absurd rfl (word_ne_nil ofWord)
    | cons d more =>
      cases other with
      | nil => cases same
      | cons e others =>
        obtain ⟨rfl, _⟩ := List.cons.inj shape
        -- the word begins with the sign, so what was written does
        cases Text.sameLetter_of_not_letter unlettered (Bool.and_eq_true_iff.mp same).1
        cases written with
        | nil => cases whole
        | cons f later =>
          have equal := (Bool.and_eq_true_iff.mp whole).1
          have letters : Text.sameLetter f c = true := by
            rw [Text.sameLetter, beq_iff_eq] at equal ⊢
            exact equal.symm
          cases Text.sameLetter_of_not_letter unlettered letters
          rw [List.head?_cons, isWord, Option.any_some, unworded] at first
          cases first

theorem closes_added (ofWord : Written word written) (candidate : Text)
    (closes : Text.Closes Query.isEdge r) (u : Text) :
    Text.Closes Query.isEdge
      ((Scan.behind (find word) 0 u.getLast? r).flatMap (added candidate)) := by
  induction closes generalizing u with
  | done => exact .done
  | separator ends =>
    rw [Scan.behind_loose (not_find_sign ofWord (.inl ends) _)]
    exact .separator ends
  | quote _ ih =>
    rw [Scan.behind_loose (not_find_sign ofWord (.inr (by decide)) _)]
    exact .quote (ih _)

theorem pieces_stands (stands : Stands word q) :
    ∃ (written u r : Text) (ps : List (Piece Unit)), Written word written ∧
      Text.Closes Query.isEdge r ∧
      Scan.pieces (find word) q =
        ps ++ .token () written :: Scan.behind (find word) 0 u.getLast? r := by
  obtain ⟨before, written, after, rfl, ofWord, free, barrier, closes⟩ := stands
  have here : ∀ u : Text, isWord u.getLast? = false →
      Scan.behind (find word) 0 u.getLast? (written ++ after) =
        .token () written :: Scan.behind (find word) 0 (u ++ written).getLast? after := by
    intro u outside
    have occurs := occurs_written ofWord outside closes
    have found := (finds_word (word_ne_nil ofWord)).exact.mpr ⟨written, after, rfl, occurs, rfl⟩
    exact Scan.behind_token (written_ne_nil ofWord) found
  rw [List.append_assoc]
  rcases List.eq_nil_or_concat' before with rfl | ⟨init, l, rfl⟩
  · exact ⟨written, [] ++ written, after, [], ofWord, closes, here [] rfl⟩
  · rw [List.getLast?_concat] at free barrier
    -- no occurrence reaches over what is in front of the word
    have stops : ∀ b y a n,
        find word b (y ++ l :: (written ++ after)) = some (a, n) → n ≤ y.length := by
      intro b y a n found
      obtain ⟨same, other, rest, shape, letters, _⟩ := find_eq_some.mp found
      cases same
      rw [length_of_sameLetters letters]
      rcases List.append_eq_append_iff.mp shape with ⟨x, rfl, split⟩ | ⟨x, rfl, _⟩
      · cases x with
        | nil => simp
        | cons d more =>
          obtain ⟨rfl, _⟩ := List.cons.inj split
          obtain ⟨d, among, equal⟩ := sameLetters_mem letters (c := l) (by simp)
          rw [barrier l rfl d among] at equal
          cases equal
      · simp
    obtain ⟨ps, same⟩ := Scan.behind_barrier stops init (Nat.zero_le _) none
    have later := here [l] free
    refine ⟨written, [l] ++ written, after, ps ++ [.loose l], ofWord, closes, ?_⟩
    rw [Scan.pieces, List.append_assoc, List.singleton_append, same]
    simpa using later

theorem addBehind_stands (stands : Stands word q) (candidate : Text) :
    ∃ front back, addBehind word candidate q = front ++ ' ' :: (candidate ++ back) ∧
      Text.Closes Query.isEdge back := by
  obtain ⟨written, u, r, ps, ofWord, closes, pieces⟩ := pieces_stands stands
  refine ⟨ps.flatMap (added candidate) ++ written, _, ?_, closes_added ofWord candidate closes u⟩
  rw [addBehind_eq (word_ne_nil ofWord), pieces]
  simp [added]

theorem addBehind_ne (stands : Stands word q) (candidate : Text) :
    addBehind word candidate q ≠ q := by
  obtain ⟨before, written, after, split, ofWord, free, _, closes⟩ := stands
  intro same
  have absent := (addBehind_eq_self (word_ne_nil ofWord) candidate q).mp same
  exact absent before written after split (occurs_written ofWord free closes)

end Added

end Correction

end CardCatalog
