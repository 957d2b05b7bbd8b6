import CardCatalog.Text.Scan

/-!
Year ranges. Four ASCII digits, a hyphen and four ASCII digits are a range wherever they
stand in a query, also inside a longer run of digits. The first one is meant; every one
is taken out, so that the rest holds none. This is the program's `extract_year_range`.
-/

namespace CardCatalog

/-- The ends need not be in order; a range that is inverted holds no year. -/
structure YearRange where
  first : Nat
  last : Nat
  deriving DecidableEq

namespace YearRange

def holds (range : YearRange) (year : Int) : Bool :=
  range.first ≤ year && year ≤ range.last

def atHead : Text → Option YearRange
  | a :: b :: c :: d :: dash :: e :: f :: g :: h :: _ =>
    if [a, b, c, d, e, f, g, h].all Text.isDigit && dash == '-' then
      some ⟨Text.number [a, b, c, d], Text.number [e, f, g, h]⟩
    else none
  | _ => none

def find : Finder YearRange := fun _ t => (atHead t).map (·, 9)

/-- A blank stands where a range was, so that the text around it does not grow
together into a word or into another range. -/
def blanked (ps : List (Piece YearRange)) : Text :=
  ps.flatMap fun
    | .loose c => [c]
    | .token _ _ => [' ']

/-- Without a range the text comes back as it was, its blanks included. -/
def extract (q : Text) : Option YearRange × Text :=
  let ps := Scan.pieces find q
  match Scan.values ps with
  | [] => (none, q)
  | range :: _ => (some range, Text.collapse (blanked ps))

end YearRange

end CardCatalog
