import CardCatalog.Index.Analysis

/-!
Highlights. A stored text is shown up to the end of its last term, the terms of the
query in bold and all markup of its own escaped. A very long text is cut into fragments
at the starts of terms, and only the fragment that fits best is shown. All of it is the
search library's; `search` asks for it text by text.
-/

namespace CardCatalog.Highlight

def span : Nat := 100000

def escape (c : Char) : Text :=
  match c with
  | '&' => "&amp;".toList
  | '<' => "&lt;".toList
  | '>' => "&gt;".toList
  | '"' => "&quot;".toList
  | '\'' => "&#x27;".toList
  | c => [c]

def escaped (t : Text) : Text := t.flatMap escape

abbrev Fragment := List (Piece Text)

def isTerm : Piece Text → Bool
  | .loose _ => false
  | .token run _ => Analysis.isKept run

/-- Reads on at an offset in a fragment that began at another one. A term that
ends too far from the beginning opens the next fragment. -/
def fragmentsFrom (offset start : Nat) (current : Fragment) : List (Piece Text) → List Fragment
  | [] => [current.reverse]
  | piece :: rest =>
    let stop := offset + Text.octetCount piece.raw
    if isTerm piece && stop - start > span then
      current.reverse :: fragmentsFrom stop offset [piece] rest
    else fragmentsFrom stop start (piece :: current) rest

def cutTail (f : Fragment) : Fragment := (f.reverse.dropWhile (!isTerm ·)).reverse

def fragments (t : Text) : List Fragment :=
  (fragmentsFrom 0 0 [] (Analysis.pieces t)).map cutTail

-- What a term of the query adds to the value of a fragment, none for others
variable (share : Text → Option Float32)

def shareOf : Piece Text → Option Float32
  | .loose _ => none
  | .token run _ => if Analysis.isKept run then share (Analysis.term run) else none

def value (f : Fragment) : Float32 := (f.filterMap (shareOf share)).foldl (· + ·) 0

def matching (f : Fragment) : Bool := f.any fun piece => (shareOf share piece).isSome

def best : List Fragment → Option Fragment
  | [] => none
  | f :: rest =>
    match best rest with
    | some other => if value share f < value share other then some other else some f
    | none => some f

def markPiece (piece : Piece Text) : Text :=
  if (shareOf share piece).isSome then "<b>".toList ++ escaped piece.raw ++ "</b>".toList
  else escaped piece.raw

def marked (f : Fragment) : Text := f.flatMap (markPiece share)

def ofText (t : Text) : Option Text :=
  (best share ((fragments t).filter (matching share))).map (marked share)

end CardCatalog.Highlight
