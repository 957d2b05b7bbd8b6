import CardCatalog.Index.Segment

/-!
Relevance after BM25, in single precision. A term counts for more the fewer cards have
it, and an occurrence for less the more of them a card has and the longer its text is.
Cards that were replaced still count as long as their segment is there. All of it is the
search library's; the program only gives the weights.
-/

namespace CardCatalog

namespace Relevance

def saturation : Float32 := 1.2
def lengthShare : Float32 := 0.75

/-- A length above forty keeps its four leading binary digits, counted from 24. -/
def roundedLength (n : Nat) : Nat :=
  if n ≤ 40 then n
  else
    let m := n - 24
    let step := Nat.pow 2 (m.log2 - 3)
    m - m % step + 24

def total (counts : List Nat) : Nat := counts.foldr (· + ·) 0

/-- How telling it is that a card has a term that n of all cards have. -/
def rarity (cards n : Nat) : Float32 :=
  Float32.log (1 + (Float32.ofNat (cards - n) + 0.5) / (Float32.ofNat n + 0.5))

/-- The rarity is the sum over the terms that occur together. -/
def score (weight rarity average : Float32) (occurrences length : Nat) : Float32 :=
  let norm := saturation *
    (1 - lengthShare + lengthShare * Float32.ofNat (roundedLength length) / average)
  let count := Float32.ofNat occurrences
  rarity * (1 + saturation) * weight * (count / (count + norm))

end Relevance

namespace Store

variable (store : Store)

def cardCount : Nat := Relevance.total (store.segments.map (·.held.length))

def frequency (column term : Text) : Nat :=
  Relevance.total (store.segments.map fun s => ((s.column column).map (·.find term |>.length)).getD 0)

def termCount (column : Text) : Nat :=
  Relevance.total (store.segments.map fun s => ((s.column column).map (Relevance.total ·.lengths)).getD 0)

def averageLength (column : Text) : Float32 :=
  Float32.ofNat (store.termCount column) / Float32.ofNat store.cardCount

def rarity (column term : Text) : Float32 :=
  Relevance.rarity store.cardCount (store.frequency column term)

end Store

end CardCatalog
