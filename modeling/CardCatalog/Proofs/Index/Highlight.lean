import CardCatalog.Proofs.Index.Markup
import CardCatalog.Proofs.Text.Division
import Mathlib.Data.List.DropRight

/-!
What a highlight is made of. A text is divided at its runs of letters and numbers; those
that are short enough are its terms. A text that fits into one fragment has a highlight if
one of its terms is sought, and this is the text up to the last term, with just these
terms in bold.
-/

namespace CardCatalog

namespace Scan

variable {α : Type}

def filled (find : Finder α) : Finder α := fun before t => (find before t).filter (0 < ·.2)

theorem behind_filled (find : Finder α) (count : Nat) (before : Option Char) (t : Text) :
    behind (filled find) count before t = behind find count before t := by
  induction t generalizing count before with
  | nil => cases count <;> rfl
  | cons c rest ih =>
    cases count with
    | succ inside => exact ih inside (some c)
    | zero =>
      rw [behind, behind, filled]
      rcases find before (c :: rest) with _ | ⟨a, _ | more⟩ <;> simp [ih, Option.filter_some]

end Scan

namespace Analysis

open Division

/-- A run of letters and numbers goes on as far as it can. The one that comes first in a text
begins as early as it can, so what is in front of it need not be said. -/
def Run : Occurrence := fun _ m r =>
  m ≠ [] ∧ (∀ c ∈ m, Text.isAlphanumeric c = true) ∧
    ∀ c, r.head? = some c → Text.isAlphanumeric c = false

theorem finds_run : Finds (Scan.filled findRun) Run id where
  filled := fun run => run.1
  exact := by
    intro u t found
    rw [Scan.filled, findRun, Option.filter_eq_some_iff]
    constructor
    · rintro ⟨same, long⟩
      cases same
      refine ⟨t.takeWhile Text.isAlphanumeric, t.dropWhile Text.isAlphanumeric,
        List.takeWhile_append_dropWhile.symm, ⟨?_, ?_, ?_⟩, rfl⟩
      · exact List.length_pos_iff.mp (of_decide_eq_true long)
      · exact fun c member => List.mem_takeWhile_imp member
      · intro c head
        have stops := List.head?_dropWhile_not Text.isAlphanumeric t
        simpa [head] using stops
    · rintro ⟨m, r, rfl, ⟨filled, all, stops⟩, rfl⟩
      have none : r.takeWhile Text.isAlphanumeric = [] := by
        cases r with
        | nil => rfl
        | cons c rest => simp [stops c rfl]
      have whole : (m ++ r).takeWhile Text.isAlphanumeric = m := by
        rw [List.takeWhile_append_of_pos all, none, List.append_nil]
      rw [whole]
      exact ⟨rfl, decide_eq_true (List.length_pos_iff.mpr filled)⟩

theorem exists_runs (t : Text) : ∃ d, Leftmost Run [] t d ∧
    (∀ e, Leftmost Run [] t e → e = d) ∧ pieces t = d.pieces id := by
  obtain ⟨d, leftmost, only, scanned⟩ := finds_run.division [] t
  refine ⟨d, leftmost, only, ?_⟩
  rw [← scanned, Scan.behind_filled]
  rfl

end Analysis

namespace Text

theorem octetCount_append (s t : Text) : octetCount (s ++ t) = octetCount s + octetCount t := by
  rw [octetCount, octets, List.flatMap_append, List.length_append]
  rfl

end Text

namespace Highlight

theorem fragmentsFrom_fits {offset : Nat} {current ps : List (Piece Text)}
    (fits : offset + Text.octetCount (ps.flatMap Piece.raw) ≤ span) :
    fragmentsFrom offset 0 current ps = [current.reverse ++ ps] := by
  induction ps generalizing offset current with
  | nil => rw [fragmentsFrom, List.append_nil]
  | cons piece rest ih =>
    rw [List.flatMap_cons, Text.octetCount_append] at fits
    have near : ¬ offset + Text.octetCount piece.raw - 0 > span := by omega
    have tail : offset + Text.octetCount piece.raw +
        Text.octetCount (rest.flatMap Piece.raw) ≤ span := by omega
    rw [fragmentsFrom, decide_eq_false near, Bool.and_false, if_neg Bool.false_ne_true, ih tail]
    simp

theorem fragments_fits {t : Text} (fits : Text.octetCount t ≤ span) :
    fragments t = [cutTail (Analysis.pieces t)] := by
  have whole : 0 + Text.octetCount ((Analysis.pieces t).flatMap Piece.raw) ≤ span := by
    rwa [Nat.zero_add, Analysis.pieces, Scan.raw_pieces]
  rw [fragments, fragmentsFrom_fits whole]
  rfl

theorem cutTail_append {f g : Fragment}
    (last : ∀ piece, f.getLast? = some piece → isTerm piece = true)
    (behind : ∀ piece ∈ g, isTerm piece = false) : cutTail (f ++ g) = f := by
  have none : ∀ piece ∈ g.reverse, (!isTerm piece) = true := by
    intro piece member
    rw [behind piece (List.mem_reverse.mp member)]
    rfl
  have stays : f.reverse.dropWhile (!isTerm ·) = f.reverse := by
    cases begins : f.reverse with
    | nil => rfl
    | cons piece rest =>
      have ends : f.getLast? = some piece := by rw [List.getLast?_eq_head?_reverse, begins]; rfl
      simp [last piece ends]
  rw [cutTail, List.reverse_append, List.dropWhile_append_of_pos none, stays, List.reverse_reverse]

theorem ofText_fits (share : Text → Option Float32) {t : Text} (fits : Text.octetCount t ≤ span) :
    ofText share t = if matching share (cutTail (Analysis.pieces t)) then
      some (marked share (cutTail (Analysis.pieces t))) else none := by
  rw [ofText, fragments_fits fits, List.filter_singleton]
  cases matching share (cutTail (Analysis.pieces t)) <;> rfl

/-- The runs up to the last one that is a term, and those behind it. -/
structure Parts (found shown behind : List (Text × Text)) : Prop where
  whole : found = shown ++ behind
  last : ∀ cut, shown.getLast? = some cut → Analysis.isKept cut.2 = true
  behind : ∀ cut ∈ behind, Analysis.isKept cut.2 = false

theorem exists_parts (found : List (Text × Text)) : ∃ shown behind, Parts found shown behind := by
  refine ⟨found.rdropWhile (!Analysis.isKept ·.2), found.rtakeWhile (!Analysis.isKept ·.2),
    List.rdropWhile_append_rtakeWhile.symm, ?_, ?_⟩
  · intro cut last
    have filled : found.rdropWhile (!Analysis.isKept ·.2) ≠ [] := by
      intro empty
      rw [empty] at last
      cases last
    rw [List.getLast?_eq_some_getLast filled] at last
    cases last
    simpa using List.rdropWhile_last_not _ _ filled
  · intro cut member
    simpa using List.mem_rtakeWhile_imp member

section Pieces

variable {share : Text → Option Float32} {on : Text → Bool}
  (same : ∀ run, (shareOf share (.token run run)).isSome = on run)
include same

theorem marked_pieces (cuts : List (Text × Text)) :
    marked share (Division.pieces id ⟨cuts, []⟩) = written on cuts := by
  have loose (s : Text) : (s.map Piece.loose).flatMap (markPiece share) = escaped s := by
    rw [List.flatMap_map]
    refine List.flatMap_congr fun c _ => ?_
    simp [markPiece, shareOf, Piece.raw, escaped]
  have token (run : Text) : markPiece share (.token run run) = bold (on run) run := by
    rw [markPiece, same, bold]
    rfl
  simp [marked, Division.pieces, written, List.flatMap_assoc, loose, token]

theorem matching_pieces (cuts : List (Text × Text)) :
    matching share (Division.pieces id ⟨cuts, []⟩) = cuts.any fun cut => on cut.2 := by
  have loose (s : Text) : (s.map Piece.loose).any (fun piece => (shareOf share piece).isSome) =
      false := by
    simp [shareOf]
  simp [matching, Division.pieces, List.any_flatMap, loose, same]

end Pieces

section Divided

variable {share : Text → Option Float32} {on : Text → Bool} {t : Text} {d : Division}
  {shown behind : List (Text × Text)}

theorem cutTail_pieces (parts : Parts d.found shown behind) :
    cutTail (d.pieces id) = Division.pieces id ⟨shown, []⟩ := by
  have split : d.pieces id =
      Division.pieces id ⟨shown, []⟩ ++ Division.pieces id ⟨behind, d.rest⟩ := by
    simp [Division.pieces, parts.whole]
  rw [split]
  apply cutTail_append
  · intro piece last
    rcases List.eq_nil_or_concat' shown with rfl | ⟨init, cut, rfl⟩
    · cases last
    · have ends : piece = .token cut.2 cut.2 := by
        simpa [Division.pieces, eq_comm] using last
      rw [ends]
      exact parts.last cut (List.getLast?_concat ..)
  · intro piece member
    rcases List.mem_append.mp member with among | rest
    · obtain ⟨cut, listed, inside⟩ := List.mem_flatMap.mp among
      rcases List.mem_append.mp inside with gap | run
      · obtain ⟨c, _, rfl⟩ := List.mem_map.mp gap
        rfl
      · rw [List.mem_singleton.mp run]
        exact parts.behind cut listed
    · obtain ⟨c, _, rfl⟩ := List.mem_map.mp rest
      rfl

/-- A text that fits into one fragment is shown up to its last term, if a term of it is
sought. -/
theorem ofText_eq (fits : Text.octetCount t ≤ span) (pieces : Analysis.pieces t = d.pieces id)
    (parts : Parts d.found shown behind)
    (same : ∀ run, (shareOf share (.token run run)).isSome = on run) :
    ofText share t = if shown.any fun cut => on cut.2 then some (written on shown) else none := by
  rw [ofText_fits share fits, pieces, cutTail_pieces parts, matching_pieces same,
    marked_pieces same]

end Divided

end Highlight

end CardCatalog
