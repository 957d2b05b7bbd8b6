import CardCatalog.Query.Plan

/-!
Free text. Quoted words are a phrase, and so is a bare reference number such as `123-45`
or `12-345-6`, which has to match as a unit. What remains is one fuzzy clause, provided
a letter or a number is left in it. This is the program's `compile_text`.
-/

namespace CardCatalog.Phrase

def digits (t : Text) : Text := t.takeWhile Text.isDigit

/-- Two or three runs of ASCII digits with single hyphens between them, as far as
they reach. -/
def reference? (t : Text) : Option Text :=
  let first := digits t
  match first, t.drop first.length with
  | _ :: _, '-' :: afterFirst =>
    let second := digits afterFirst
    match second, afterFirst.drop second.length with
    | _ :: _, '-' :: afterSecond =>
      match digits afterSecond with
      | [] => some (first ++ '-' :: second)
      | third => some (first ++ '-' :: second ++ '-' :: third)
    | _ :: _, _ => some (first ++ '-' :: second)
    | [], _ => none
  | _, _ => none

/-- The token is the text of the phrase, which is empty for a blank quotation. -/
def find : Finder Text
  | _, [] => none
  | _, c :: rest =>
    if Text.isQuote c then
      if rest.any Text.isQuote then
        let inside := rest.takeWhile (!Text.isQuote ·)
        some (Text.trim inside, inside.length + 2)
      else none
    else (reference? (c :: rest)).map fun number => (number, number.length)

def leftover (ps : List (Piece Text)) : Text :=
  Text.collapse <| ps.flatMap fun
    | .loose c => [c]
    | .token _ _ => [' ']

variable (fields : List WeightedField)

def leaves (t : Text) : List Leaf :=
  let ps := Scan.pieces find t
  let phrases := ((Scan.values ps).filter (!·.isEmpty)).map (Leaf.phrase · fields)
  let rest := leftover ps
  if rest.any Text.isAlphanumeric then phrases ++ [.fuzzy rest fields] else phrases

def compile (t : Text) : Option Clause := Clause.ofLeaves (leaves fields t)

end CardCatalog.Phrase
