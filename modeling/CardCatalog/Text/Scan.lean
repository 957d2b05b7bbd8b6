import CardCatalog.Text.Basic

/-!
Reading a text from left to right for tokens. A finder looks at the character before a
place and at the text from there on, and answers the token that starts there together
with its length. The scan takes the first token it meets, goes on behind it, and hands
back every character that no token covers: the pieces put together are the text again.
That is how the program's regular expressions go over a text.
-/

namespace CardCatalog

inductive Piece (α : Type) where
  | loose (c : Char)
  | token (value : α) (raw : Text)

namespace Piece

variable {α : Type}

def raw : Piece α → Text
  | loose c => [c]
  | token _ text => text

def value? : Piece α → Option α
  | loose _ => none
  | token a _ => some a

end Piece

abbrev Finder (α : Type) := Option Char → Text → Option (α × Nat)

namespace Scan

variable {α : Type}

/-- The count is what remains of the token just handed back; its characters are
passed over. A token of length zero is none. -/
def behind (find : Finder α) : Nat → Option Char → Text → List (Piece α)
  | _, _, [] => []
  | inside + 1, _, c :: rest => behind find inside (some c) rest
  | 0, before, c :: rest =>
    match find before (c :: rest) with
    | some (a, more + 1) => .token a (c :: rest.take more) :: behind find more (some c) rest
    | _ => .loose c :: behind find 0 (some c) rest

def pieces (find : Finder α) (t : Text) : List (Piece α) := behind find 0 none t

def values (ps : List (Piece α)) : List α := ps.filterMap Piece.value?

theorem raw_behind (find : Finder α) (count : Nat) (before : Option Char) (t : Text) :
    (behind find count before t).flatMap Piece.raw = t.drop count := by
  induction t generalizing count before with
  | nil => simp [behind]
  | cons c rest ih =>
    cases count with
    | succ inside => simp [behind, ih]
    | zero =>
      unfold behind
      split
      · simp [Piece.raw, ih, List.take_append_drop]
      · simp [Piece.raw, ih]

/-- Nothing is lost and nothing is read twice. -/
theorem raw_pieces (find : Finder α) (t : Text) : (pieces find t).flatMap Piece.raw = t := by
  simp [pieces, raw_behind]

end Scan

end CardCatalog
