import CardCatalog.Proofs.Query.Reading
import CardCatalog.Proofs.Query.Reference

/-!
How free text is read for phrases. `Reads` says what the scan does at a place: a
character is passed over, a quotation that closes is a phrase, or a reference number
is. The scan does not look back, so the reading of a text is the same wherever the
text stands.
-/

namespace CardCatalog

namespace Phrase

open Scope (Unquoted)
open Query (reference_eq_some reference_numeral)

/-- The text from a place on, and the pieces of it. -/
inductive Reads : Text → List (Piece Text) → Prop where
  | done : Reads [] []
  | loose {r : Text} {c : Char} {ps : List (Piece Text)}
      (unquoted : Text.isQuote c = false ∨ Unquoted r) (unread : reference? (c :: r) = none)
      (rest : Reads r ps) : Reads (c :: r) (.loose c :: ps)
  | quotation {inside r : Text} {ps : List (Piece Text)} (free : Unquoted inside)
      (rest : Reads r ps) :
      Reads ('"' :: inside ++ ['"'] ++ r)
        (.token (Text.trim inside) ('"' :: inside ++ ['"']) :: ps)
  | number {n r : Text} {ps : List (Piece Text)} (read : reference? (n ++ r) = some n)
      (rest : Reads r ps) : Reads (n ++ r) (.token n n :: ps)

section Find

variable {n r inside : Text} {c : Char}

theorem find_eq_none (unquoted : Text.isQuote c = false ∨ Unquoted r)
    (unread : reference? (c :: r) = none) (before : Option Char) :
    find before (c :: r) = none := by
  rw [find]
  split
  · rename_i quote
    rcases unquoted with other | free
    · rw [quote] at other
      cases other
    · rw [if_neg]
      simpa [Unquoted] using free
  · rw [unread]
    rfl

theorem find_quotation (free : Unquoted inside) (r : Text) (before : Option Char) :
    find before ('"' :: inside ++ ['"'] ++ r) =
      some (Text.trim inside, ('"' :: inside ++ ['"']).length) := by
  have run : (inside ++ '"' :: r).takeWhile (!Text.isQuote ·) = inside := by
    rw [List.takeWhile_append_of_pos (by simpa [Unquoted] using free)]
    simp [Text.isQuote]
  have closes : (inside ++ '"' :: r).any Text.isQuote = true := by simp [Text.isQuote]
  have shape : '"' :: inside ++ ['"'] ++ r = '"' :: (inside ++ '"' :: r) := by simp
  rw [shape, find, if_pos (by decide), if_pos closes, run]
  simp

theorem find_number (read : reference? (n ++ r) = some n) (before : Option Char) :
    find before (n ++ r) = some (n, n.length) := by
  obtain ⟨filled, numeral⟩ := reference_numeral (reference_eq_some.mp read).1
  obtain ⟨c, more, rfl⟩ := List.exists_cons_of_ne_nil filled
  have other := (Query.numeral_solid (numeral c (by simp))).2.1
  rw [List.cons_append, find, other, if_neg (by decide), ← List.cons_append, read]
  rfl

end Find

section Run

variable {t : Text} {ps : List (Piece Text)}

theorem reads_behind (u t : Text) : Reads t (Scan.behind find 0 u.getLast? t) := by
  induction size : t.length using Nat.strongRecOn generalizing u t with
  | ind n ih =>
    subst size
    have later (v r : Text) (shorter : r.length < t.length) :
        Reads r (Scan.behind find 0 v.getLast? r) := ih _ shorter v r rfl
    cases t with
    | nil => exact .done
    | cons c r =>
      by_cases quoted : Text.isQuote c = true ∧ r.any Text.isQuote = true
      · obtain ⟨inside, rest, free, rfl⟩ := Scope.first_quote quoted.2
        have split : c :: (inside ++ '"' :: rest) = '"' :: inside ++ ['"'] ++ rest := by
          simp [Scope.isQuote_iff.mp quoted.1]
        rw [split] at later ⊢
        rw [Scan.behind_token (by simp) (find_quotation free rest _)]
        exact .quotation free (later _ rest (by simp; omega))
      · have unquoted : Text.isQuote c = false ∨ Unquoted r := by
          simpa [Unquoted, Decidable.imp_iff_not_or] using quoted
        cases read : reference? (c :: r) with
        | none =>
          rw [Scan.behind_loose (find_eq_none unquoted read _)]
          exact .loose unquoted read (later _ r (by simp))
        | some n =>
          obtain ⟨reference, ⟨rest, shape⟩, _⟩ := reference_eq_some.mp read
          have filled := (reference_numeral reference).1
          rw [← shape] at read later ⊢
          rw [Scan.behind_token filled (find_number read _)]
          refine .number read (later _ rest ?_)
          rw [List.length_append]
          have := List.length_pos_of_ne_nil filled
          omega

theorem behind_of_reads (reads : Reads t ps) (u : Text) : Scan.behind find 0 u.getLast? t = ps := by
  induction reads generalizing u with
  | done => rfl
  | loose unquoted unread _ ih => rw [Scan.behind_loose (find_eq_none unquoted unread _), ih]
  | quotation free _ ih => rw [Scan.behind_token (by simp) (find_quotation free _ _), ih]
  | number read _ ih =>
    have filled := (reference_numeral (reference_eq_some.mp read).1).1
    rw [Scan.behind_token filled (find_number read _), ih]

theorem reads_pieces (t : Text) : Reads t (Scan.pieces find t) := reads_behind [] t

theorem pieces_of_reads (reads : Reads t ps) : Scan.pieces find t = ps := behind_of_reads reads []

end Run

end Phrase

end CardCatalog
