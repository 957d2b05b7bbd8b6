import CardCatalog.Index.Spelling
import Mathlib.Order.Bounds.Defs

/-!
The distance of two words is the least number of single edits that lead from the one to
the other. The table behind it reads both words from the front, so its rows are about
the parts read so far, last character first: what has been read of the one is set
against what has been read of the other, character by character.
-/

namespace CardCatalog

namespace Edit

/-- One character is inserted, deleted or replaced, wherever it stands. -/
inductive Single : Text → Text → Prop where
  | insert (u v : Text) (c : Char) : Single (u ++ v) (u ++ c :: v)
  | delete (u v : Text) (c : Char) : Single (u ++ c :: v) (u ++ v)
  | replace (u v : Text) (c d : Char) : Single (u ++ c :: v) (u ++ d :: v)

/-- So many single edits lead from the one text to the other. -/
inductive Edits : Nat → Text → Text → Prop where
  | done (a : Text) : Edits 0 a a
  | step {n : Nat} {a b c : Text} : Edits n a b → Single b c → Edits (n + 1) a c

/-- The characters of two texts set against each other, with what that costs. -/
inductive Aligned : Nat → Text → Text → Prop where
  | nil : Aligned 0 [] []
  | insert {n : Nat} {a b : Text} (d : Char) : Aligned n a b → Aligned (n + 1) a (d :: b)
  | delete {n : Nat} {a b : Text} (c : Char) : Aligned n a b → Aligned (n + 1) (c :: a) b
  | against {n : Nat} {a b : Text} (c d : Char) :
      Aligned n a b → Aligned (n + if d = c then 0 else 1) (c :: a) (d :: b)

section Edits

variable {n m : Nat} {a b c : Text}

theorem Single.behind (single : Single a b) (d : Char) : Single (d :: a) (d :: b) := by
  cases single with
  | insert u v c => exact .insert (d :: u) v c
  | delete u v c => exact .delete (d :: u) v c
  | replace u v c e => exact .replace (d :: u) v c e

theorem Single.reverse (single : Single a b) : Single a.reverse b.reverse := by
  cases single with
  | insert u v c => simpa using Single.insert v.reverse u.reverse c
  | delete u v c => simpa using Single.delete v.reverse u.reverse c
  | replace u v c d => simpa using Single.replace v.reverse u.reverse c d

theorem Edits.trans (first : Edits n a b) (second : Edits m b c) : Edits (n + m) a c := by
  induction second with
  | done _ => exact first
  | step _ single ih => exact (ih first).step single

theorem Edits.behind (edits : Edits n a b) (d : Char) : Edits n (d :: a) (d :: b) := by
  induction edits with
  | done _ => exact .done _
  | step _ single ih => exact .step ih (single.behind d)

theorem Edits.reverse (edits : Edits n a b) : Edits n a.reverse b.reverse := by
  induction edits with
  | done _ => exact .done _
  | step _ single ih => exact .step ih single.reverse

theorem Aligned.self (a : Text) : Aligned 0 a a := by
  induction a with
  | nil => exact .nil
  | cons c rest ih => simpa using Aligned.against c c ih

theorem Aligned.edits (aligned : Aligned n a b) : Edits n a b := by
  induction aligned with
  | nil => exact .done []
  | insert d _ ih => exact .step ih (.insert [] _ d)
  | @delete n a b c _ ih =>
    have first : Edits 1 (c :: a) a := .step (.done _) (.delete [] a c)
    rw [Nat.add_comm]
    exact first.trans ih
  | @against n a b c d _ ih =>
    by_cases same : d = c
    · simpa [same] using ih.behind c
    · simpa [same] using (ih.behind c).step (.replace [] b c d)

theorem single_nil (single : Single [] c) : ∃ e, c = [e] := by
  generalize empty : ([] : Text) = b at single
  cases single with
  | insert u v e =>
    obtain ⟨rfl, rfl⟩ := List.append_eq_nil_iff.mp empty.symm
    exact ⟨e, rfl⟩
  | delete u v e => simp at empty
  | replace u v e f => simp at empty

theorem single_cons {d : Char} (single : Single (d :: b) c) :
    (∃ e, c = e :: d :: b) ∨ c = b ∨ (∃ e, c = e :: b) ∨ ∃ b', c = d :: b' ∧ Single b b' := by
  generalize whole : d :: b = t at single
  cases single with
  | insert u v e =>
    cases u with
    | nil => exact .inl ⟨e, rfl⟩
    | cons f u =>
      obtain ⟨rfl, rfl⟩ := List.cons.inj whole
      exact .inr (.inr (.inr ⟨_, rfl, .insert u v e⟩))
  | delete u v e =>
    cases u with
    | nil =>
      obtain ⟨rfl, rfl⟩ := List.cons.inj whole
      exact .inr (.inl rfl)
    | cons f u =>
      obtain ⟨rfl, rfl⟩ := List.cons.inj whole
      exact .inr (.inr (.inr ⟨_, rfl, .delete u v e⟩))
  | replace u v e f =>
    cases u with
    | nil =>
      obtain ⟨rfl, rfl⟩ := List.cons.inj whole
      exact .inr (.inr (.inl ⟨f, rfl⟩))
    | cons g u =>
      obtain ⟨rfl, rfl⟩ := List.cons.inj whole
      exact .inr (.inr (.inr ⟨_, rfl, .replace u v e f⟩))

theorem Aligned.single (aligned : Aligned n a b) (single : Single b c) :
    ∃ k ≤ n + 1, Aligned k a c := by
  induction aligned generalizing c with
  | nil =>
    obtain ⟨e, rfl⟩ := single_nil single
    exact ⟨1, by omega, .insert e .nil⟩
  | @insert n a b d before ih =>
    rcases single_cons single with ⟨e, rfl⟩ | rfl | ⟨e, rfl⟩ | ⟨b', rfl, later⟩
    · exact ⟨_, by omega, .insert e (.insert d before)⟩
    · exact ⟨n, by omega, before⟩
    · exact ⟨_, by omega, .insert e before⟩
    · obtain ⟨k, within, found⟩ := ih later
      exact ⟨_, by omega, .insert d found⟩
  | @delete n a b d before ih =>
    obtain ⟨k, within, found⟩ := ih single
    exact ⟨_, by omega, .delete d found⟩
  | @against n a b f d before ih =>
    rcases single_cons single with ⟨e, rfl⟩ | rfl | ⟨e, rfl⟩ | ⟨b', rfl, later⟩
    · exact ⟨_, by omega, .insert e (.against f d before)⟩
    · exact ⟨_, by omega, .delete f before⟩
    · exact ⟨_, by split <;> omega, .against f e before⟩
    · obtain ⟨k, within, found⟩ := ih later
      exact ⟨_, by omega, .against f d found⟩

theorem Edits.aligned (edits : Edits n a b) : ∃ k ≤ n, Aligned k a b := by
  induction edits with
  | done a => exact ⟨0, Nat.le_refl 0, .self a⟩
  | step _ single ih =>
    obtain ⟨k, within, aligned⟩ := ih
    obtain ⟨j, more, found⟩ := aligned.single single
    exact ⟨j, by omega, found⟩

end Edits

/-- The least that it costs to set two texts against each other. -/
def Least (a b : Text) (n : Nat) : Prop := IsLeast {k | Aligned k a b} n

section Least

variable {a b : Text} {c d : Char} {n up left diagonal : Nat}

theorem least_nil (b : Text) : Least [] b b.length := by
  constructor
  · induction b with
    | nil => exact .nil
    | cons d rest ih => exact .insert d ih
  · intro k aligned
    induction b generalizing k with
    | nil => exact Nat.zero_le k
    | cons d rest ih =>
      cases aligned with
      | insert _ before => exact Nat.succ_le_succ (ih before)

theorem Least.delete (least : Least a [] n) (c : Char) : Least (c :: a) [] (n + 1) := by
  refine ⟨.delete c least.1, fun k aligned => ?_⟩
  cases aligned with
  | delete _ before => exact Nat.succ_le_succ (least.2 before)

/-- The cheapest way to the two characters is over one of the three ways to their
neighbours. -/
theorem Least.step (above : Least a (d :: b) up) (before : Least (c :: a) b left)
    (both : Least a b diagonal) :
    Least (c :: a) (d :: b)
      (min (min (up + 1) (left + 1)) (diagonal + if d = c then 0 else 1)) := by
  constructor
  · rcases Nat.le_total (min (up + 1) (left + 1)) (diagonal + if d = c then 0 else 1) with le | le
    · rw [Nat.min_eq_left le]
      rcases Nat.le_total (up + 1) (left + 1) with le | le
      · rw [Nat.min_eq_left le]
        exact .delete c above.1
      · rw [Nat.min_eq_right le]
        exact .insert d before.1
    · rw [Nat.min_eq_right le]
      exact .against c d both.1
  · intro k aligned
    cases aligned with
    | insert _ rest =>
      have least := before.2 rest
      omega
    | delete _ rest =>
      have least := above.2 rest
      omega
    | against _ _ rest =>
      have least := both.2 rest
      omega

/-- A row of the table: of the one word `a` was read, of the other one `seen` before the
row begins and character by character of `word` along it. -/
inductive Row (a : Text) : Text → Text → List Nat → Prop where
  | last {seen : Text} {n : Nat} : Least a seen n → Row a seen [] [n]
  | next {seen word : Text} {d : Char} {n : Nat} {row : List Nat} :
      Least a seen n → Row a (d :: seen) word row → Row a seen (d :: word) (n :: row)

theorem row_nil (seen word : Text) :
    Row [] seen word (List.range' seen.length (word.length + 1)) := by
  induction word generalizing seen with
  | nil => exact .last (least_nil seen)
  | cons d rest ih => exact .next (least_nil seen) (ih (d :: seen))

theorem Row.head {seen word : Text} {row : List Nat} (row_of : Row a seen word (n :: row)) :
    Least a seen n := by
  cases row_of with
  | last least => exact least
  | next least _ => exact least

theorem Row.ne_nil {seen word : Text} : ¬ Row a seen word [] := nofun

theorem Row.walk {seen word : Text} {above : List Nat}
    (row_of : Row a seen word (diagonal :: above)) (before : Least (c :: a) seen left) :
    Row (c :: a) seen word (left :: walk c word above left diagonal) := by
  induction word generalizing seen above left diagonal with
  | nil => exact .last before
  | cons d word ih =>
    cases row_of with
    | next both rest =>
      cases above with
      | nil => exact absurd rest Row.ne_nil
      | cons up above => exact .next before (ih rest (rest.head.step before both))

theorem Row.nextRow {word : Text} {row : List Nat} (row_of : Row a [] word row) (c : Char) :
    Row (c :: a) [] word (nextRow word row c) := by
  cases row with
  | nil => exact absurd row_of Row.ne_nil
  | cons first above => exact row_of.walk (row_of.head.delete c)

theorem Row.foldl {word : Text} {row : List Nat} (row_of : Row a [] word row) (b : Text) :
    Row (b.reverse ++ a) [] word (b.foldl (Edit.nextRow word) row) := by
  induction b generalizing a row with
  | nil => exact row_of
  | cons c rest ih =>
    rw [List.reverse_cons, List.append_assoc]
    exact ih (row_of.nextRow c)

theorem Row.getLast? {seen word : Text} {row : List Nat} (row_of : Row a seen word row) :
    ∃ n, row.getLast? = some n ∧ Least a (word.reverse ++ seen) n := by
  induction row_of with
  | last least => exact ⟨_, rfl, least⟩
  | @next seen word d n row _ _ ih =>
    obtain ⟨n, last, least⟩ := ih
    refine ⟨n, ?_, by simpa using least⟩
    rw [List.getLast?_cons, last]
    rfl

end Least

theorem least_distance (a b : Text) : Least a.reverse b.reverse (distance a b) := by
  have start : Row [] [] b (List.range (b.length + 1)) := List.range_eq_range' ▸ row_nil [] b
  obtain ⟨n, last, least⟩ := (start.foldl a).getLast?
  rw [List.append_nil, List.append_nil] at least
  rw [distance, last]
  exact least

/-- No fewer edits lead from the one word to the other. -/
theorem isLeast_distance (a b : Text) : IsLeast {n | Edits n a b} (distance a b) := by
  obtain ⟨reached, least⟩ := least_distance a b
  constructor
  · have edits := reached.edits.reverse
    rwa [List.reverse_reverse, List.reverse_reverse] at edits
  · intro n edits
    obtain ⟨k, within, aligned⟩ := edits.reverse.aligned
    exact Nat.le_trans (least aligned) within

example : distance "bakkr".toList "bakker".toList = 1 := by decide

end Edit

end CardCatalog
