import CardCatalog.Proofs.Text.Joined
import CardCatalog.Text.Scan

/-!
A scan, one step at a time. What is read already is kept as a text, since its
last character is what a finder sees before a place.
-/

namespace CardCatalog

namespace Scan

variable {α : Type}

theorem behind_passed (find : Finder α) (u r : Text) (count : Nat) :
    behind find count u.getLast? r = behind find 0 (u ++ r.take count).getLast? (r.drop count) := by
  induction count generalizing u r with
  | zero => simp
  | succ inside ih =>
    cases r with
    | nil => simp [behind]
    | cons c rest =>
      have moved := ih (u ++ [c]) rest
      rw [List.getLast?_concat] at moved
      simpa [behind] using moved

theorem behind_loose {find : Finder α} {u r : Text} {c : Char}
    (nothing : find u.getLast? (c :: r) = none) :
    behind find 0 u.getLast? (c :: r) = .loose c :: behind find 0 (u ++ [c]).getLast? r := by
  rw [behind, nothing, List.getLast?_concat]

theorem behind_token {find : Finder α} {u raw r : Text} {a : α} (long : raw ≠ [])
    (found : find u.getLast? (raw ++ r) = some (a, raw.length)) :
    behind find 0 u.getLast? (raw ++ r) =
      .token a raw :: behind find 0 (u ++ raw).getLast? r := by
  cases raw with
  | nil => exact absurd rfl long
  | cons c more =>
    have passed := behind_passed find (u ++ [c]) (more ++ r) more.length
    rw [List.getLast?_concat] at passed
    rw [List.cons_append, behind]
    rw [List.cons_append, List.length_cons] at found
    simp [found, passed]

theorem found_of_token {find : Finder α} {a : α} {raw : Text} (count : Nat) (before : Option Char)
    (t : Text) (member : .token a raw ∈ behind find count before t) :
    ∃ b u n, find b u = some (a, n) ∧ raw = u.take n := by
  induction t generalizing count before with
  | nil => cases count <;> cases member
  | cons c rest ih =>
    cases count with
    | succ inside => exact ih inside (some c) member
    | zero =>
      unfold behind at member
      split at member
      · rename_i value more found
        rcases List.mem_cons.mp member with here | later
        · cases here
          exact ⟨before, c :: rest, more + 1, found, rfl⟩
        · exact ih more (some c) later
      · rcases List.mem_cons.mp member with here | later
        · cases here
        · exact ih 0 (some c) later

theorem behind_barrier {find : Finder α} {b : Char} {rest : Text}
    (stops : ∀ before y a n, find before (y ++ b :: rest) = some (a, n) → n ≤ y.length)
    (x : Text) {count : Nat} (inside : count ≤ x.length) (before : Option Char) :
    ∃ ps, behind find count before (x ++ b :: rest) =
      ps ++ .loose b :: behind find 0 (some b) rest := by
  induction x generalizing count before with
  | nil =>
    have zero : count = 0 := Nat.le_zero.mp inside
    rw [zero, List.nil_append, behind]
    split
    · rename_i a more found
      exact absurd (stops before [] a (more + 1) found) (by simp)
    · exact ⟨[], rfl⟩
  | cons c x ih =>
    cases count with
    | succ more =>
      rw [List.cons_append, behind]
      exact ih (Nat.le_of_succ_le_succ inside) (some c)
    | zero =>
      rw [List.cons_append, behind]
      split
      · rename_i a more found
        have short := stops before (c :: x) a (more + 1) found
        obtain ⟨ps, same⟩ := @ih more (Nat.le_of_succ_le_succ short) (some c)
        exact ⟨_ :: ps, by rw [same]; rfl⟩
      · obtain ⟨ps, same⟩ := @ih 0 (Nat.zero_le _) (some c)
        exact ⟨_ :: ps, by rw [same]; rfl⟩

/-- A character that no token reaches over and beyond which a finder does not look parts
the scan. -/
theorem behind_parted {find : Finder α} {b : Char} {rest : Text}
    (blind : ∀ before y, find before (y ++ b :: rest) = find before y)
    (short : ∀ before y a n, find before y = some (a, n) → n ≤ y.length)
    (x : Text) {count : Nat} (inside : count ≤ x.length) (before : Option Char) :
    behind find count before (x ++ b :: rest) =
      behind find count before x ++ .loose b :: behind find 0 (some b) rest := by
  induction x generalizing count before with
  | nil =>
    obtain rfl : count = 0 := Nat.le_zero.mp inside
    -- at `b` no token begins, as it would have no room in front of it
    have seen := blind before []
    rw [List.nil_append] at seen
    rw [List.nil_append, behind, behind, seen]
    split
    · rename_i a more found
      exact absurd (short before [] a (more + 1) found) (by simp)
    · rfl
  | cons c x ih =>
    have seen := blind before (c :: x)
    rw [List.cons_append] at seen ⊢
    cases count with
    | succ more =>
      rw [behind, behind]
      exact ih (Nat.le_of_succ_le_succ inside) (some c)
    | zero =>
      rw [behind, behind, seen]
      split
      · rename_i a more found
        have fits := Nat.le_of_succ_le_succ (short before (c :: x) a (more + 1) found)
        rw [ih fits (some c), List.take_append_of_le_length fits]
        rfl
      · rw [ih (Nat.zero_le _) (some c)]
        rfl

/-- A word is over: the text ends, or a space follows. -/
def Ends (r : Text) : Prop := ∀ c, r.head? = some c → c = ' '

theorem ends_nil : Ends [] := by simp [Ends]

theorem ends_space (r : Text) : Ends (' ' :: r) := by simp [Ends]

theorem ends_spaced_out {β : Type} {f : β → Text} {xs : List β} {r : Text} (ends : Ends r) :
    Ends ((xs.flatMap fun x => ' ' :: f x) ++ r) := by
  cases xs with
  | nil => exact ends
  | cons x rest => exact ends_space _

theorem prefix_before {m w r : Text} {c : Char} (outside : c ∉ m) (start : m <+: w ++ c :: r) :
    m <+: w := by
  rcases List.prefix_or_prefix_of_prefix start (List.prefix_append w _) with within | beyond
  · exact within
  · obtain ⟨z, rfl⟩ := beyond
    cases z with
    | nil => simp
    | cons d more =>
      have head : d :: more <+: c :: r := (List.prefix_append_right_inj w).mp start
      rw [(List.cons_prefix_cons.mp head).1] at outside
      exact absurd (by simp) outside

theorem prefix_of_ends {m w r : Text} (ends : Ends r) (solid : ' ' ∉ m) (start : m <+: w ++ r) :
    m <+: w := by
  cases r with
  | nil => simpa using start
  | cons c more =>
    rw [ends c rfl] at start
    exact prefix_before solid start

theorem infix_split {m x y : Text} {c : Char} (filled : m ≠ []) (outside : c ∉ m)
    (within : m <:+: x ++ c :: y) : m <:+: x ∨ m <:+: y := by
  induction x with
  | nil =>
    rcases List.infix_cons_iff.mp within with head | tail
    · have empty : m <+: [] := prefix_before outside head
      exact absurd (List.prefix_nil.mp empty) filled
    · exact .inr tail
  | cons d rest ih =>
    rcases List.infix_cons_iff.mp within with head | tail
    · exact .inl (prefix_before outside head).isInfix
    · rcases ih tail with early | late
      · exact .inl (List.infix_cons early)
      · exact .inr late

/-- Whatever came before, the text gives these pieces where a word is over behind it. -/
def Emits (find : Finder α) (w : Text) (ps : List (Piece α)) : Prop :=
  ∀ u r, Ends r → behind find 0 u.getLast? (w ++ r) = ps ++ behind find 0 (u ++ w).getLast? r

section Emits

variable {find : Finder α} {w : Text} {ps : List (Piece α)}

theorem pieces_of_emits (emits : Emits find w ps) : pieces find w = ps := by
  have all := emits [] [] ends_nil
  simpa [pieces, behind] using all

theorem emits_passed
    (unfound : ∀ c rest, c :: rest <:+ w → ∀ before r, Ends r →
      find before (c :: (rest ++ r)) = none) :
    Emits find w (w.map .loose) := by
  induction w with
  | nil =>
    intro u r _
    simp
  | cons c rest ih =>
    have tail := ih fun d more suffix => unfound d more (suffix.trans (List.suffix_cons c rest))
    intro u r ends
    have nothing := unfound c rest List.suffix_rfl u.getLast? r ends
    rw [List.cons_append, behind_loose nothing, tail (u ++ [c]) r ends]
    simp

theorem emits_loose {v : Text} (skips : ∀ c ∈ v, ∀ before r, find before (c :: r) = none)
    (emits : Emits find w ps) : Emits find (v ++ w) (v.map .loose ++ ps) := by
  induction v with
  | nil => exact emits
  | cons c rest ih =>
    have inner := ih fun d member => skips d (List.mem_cons_of_mem c member)
    intro u r ends
    have tail := inner (u ++ [c]) r ends
    rw [List.cons_append, List.cons_append, behind_loose (skips c (by simp) _ _), tail]
    simp

theorem emits_spaced_out {β : Type} {f : β → Text} {g : β → List (Piece α)} {xs : List β}
    (each : ∀ x ∈ xs, Emits find (' ' :: f x) (g x)) :
    Emits find (xs.flatMap fun x => ' ' :: f x) (xs.flatMap g) := by
  induction xs with
  | nil =>
    intro u r _
    simp
  | cons x rest ih =>
    intro u r ends
    have tail := ih fun y member => each y (List.mem_cons_of_mem x member)
    rw [List.flatMap_cons, List.append_assoc, each x (by simp) u _ (ends_spaced_out ends),
      tail _ r ends, List.flatMap_cons]
    simp

def spaced {β : Type} (separator : Text) (g : β → List (Piece α)) : List β → List (Piece α)
  | [] => []
  | x :: rest => g x ++ rest.flatMap fun y => separator.map .loose ++ g y

theorem emits_joined {β : Type} {f : β → Text} {g : β → List (Piece α)} {xs : List β}
    {more : Text} (skips : ∀ c ∈ ' ' :: more, ∀ before r, find before (c :: r) = none)
    (each : ∀ x ∈ xs, Emits find (f x) (g x)) :
    Emits find (Text.joined (' ' :: more) (xs.map f)) (spaced (' ' :: more) g xs) := by
  cases xs with
  | nil =>
    intro u r _
    simp [Text.joined, spaced]
  | cons x rest =>
    have flat : Text.joined (' ' :: more) ((x :: rest).map f) =
        f x ++ rest.flatMap fun y => ' ' :: (more ++ f y) := by
      rw [List.map_cons, Text.joined_cons, List.flatMap_map]
      rfl
    have later : Emits find (rest.flatMap fun y => ' ' :: (more ++ f y))
        (rest.flatMap fun y => (' ' :: more).map .loose ++ g y) := by
      apply emits_spaced_out
      intro y member
      exact emits_loose skips (each y (List.mem_cons_of_mem x member))
    intro u r ends
    rw [flat, List.append_assoc, each x (by simp) u _ (ends_spaced_out ends), later _ r ends,
      spaced]
    simp

theorem flatMap_spaced {β : Type} {separator : Text} {g : β → List (Piece α)} {h : Piece α → Text}
    (kept : ∀ c, h (.loose c) = [c]) (xs : List β) :
    (spaced separator g xs).flatMap h =
      Text.joined separator (xs.map fun x => (g x).flatMap h) := by
  have same : (separator.map .loose).flatMap h = separator := by
    simp [List.flatMap_map, kept]
  cases xs with
  | nil => rfl
  | cons x rest =>
    rw [spaced, List.map_cons, Text.joined_cons, List.flatMap_append, List.flatMap_map,
      List.flatMap_assoc]
    simp [same]

theorem values_loose (t : Text) : values (t.map (@Piece.loose α)) = [] := by
  simp [values, List.filterMap_map, Piece.value?]

theorem values_spaced {β : Type} {separator : Text} {g : β → List (Piece α)} (xs : List β) :
    values (spaced separator g xs) = xs.flatMap fun x => values (g x) := by
  have none := @values_loose α separator
  cases xs with
  | nil => rfl
  | cons x rest =>
    rw [values] at none
    simp [spaced, values, List.filterMap_flatMap, none]

end Emits

end Scan

end CardCatalog
