import CardCatalog.Text.Case
import CardCatalog.Text.Scan

/-!
From text to terms. A run is a maximal sequence of letters and numbers. Runs of forty
octets or more are too long to be terms; in a stored text such a run still takes up a
position, so the words around it are not next to each other. All other runs become terms
in lower case, character by character. It is the analyzer of the search library for text
columns, which `analyze` calls for the words of a query.
-/

namespace CardCatalog.Analysis

def tooLong : Nat := 40

def findRun : Finder Text := fun _ t =>
  let run := t.takeWhile Text.isAlphanumeric
  some (run, run.length)

def pieces (t : Text) : List (Piece Text) := Scan.pieces findRun t

def runs (t : Text) : List Text := Scan.values (pieces t)

def isKept (run : Text) : Bool := Text.octetCount run < tooLong

def term (run : Text) : Text := Text.lowerEach run

def terms (t : Text) : List Text := ((runs t).filter isKept).map term

/-- One slot for every run, by position. -/
def slots (t : Text) : List (Option Text) :=
  (runs t).map fun run => if isKept run then some (term run) else none

theorem terms_eq_slots (t : Text) : terms t = (slots t).filterMap id := by
  simp only [terms, slots]
  induction runs t with
  | nil => rfl
  | cons run rest ih =>
    by_cases kept : isKept run <;> simp_all

end CardCatalog.Analysis
