import CardCatalog.Text.Basic

/-!
Decimal text of floating-point numbers, computed in whole numbers from their bits.
`shortest` takes the coarsest decimal grid on which some point still reads back as a
single-precision number; `fixed` rounds the exact value to a number of places, a half to
the even neighbour. `read` goes the other way. The program leaves numerals to its JSON
library and to its formatting.
-/

namespace CardCatalog.Decimal

/-- The magnitude is mantissa · 2 ^ exponent. At a power of two the numbers below
lie twice as close as those above. -/
structure Binary where
  negative : Bool
  mantissa : Nat
  exponent : Int
  closeBelow : Bool

/-- The bits of a number are its sign, its exponent in so many bits, and its
fraction in so many. Without an exponent the fraction stands alone. -/
def unpack (exponentBits fractionBits bits : Nat) : Binary :=
  let one := Nat.pow 2 fractionBits
  let scales := Nat.pow 2 exponentBits
  let fraction := bits % one
  let scale := bits / one % scales
  let lowest : Int := 2 - (scales / 2 : Nat) - fractionBits
  { negative := bits / (one * scales) == 1
    mantissa := if scale = 0 then fraction else fraction + one
    exponent := if scale = 0 then lowest else lowest + scale - 1
    closeBelow := fraction == 0 && scale > 1 }

def single (x : Float32) : Binary := unpack 8 23 x.toBits.toNat

def double (x : Float) : Binary := unpack 11 52 x.toBits.toNat

def power (base : Nat) (exponent : Int) : Nat × Nat :=
  let size := Nat.pow base exponent.natAbs
  if exponent < 0 then (1, size) else (size, 1)

/-- A point digits · 10 ^ grid that reads back as the number. Both neighbours of
the value on the grid are tried; of two that read back the nearer one is
taken, and the even one when they are equally near. The numbers that read
back lie between low and high, counted in quarters of the last binary place. -/
def onGrid (b : Binary) (grid : Int) : Option Nat :=
  let (unit, units) := power 2 (b.exponent - 2)
  let (ten, tens) := power 10 grid
  let value := 4 * b.mantissa * unit * tens
  let low := (4 * b.mantissa - if b.closeBelow then 1 else 2) * unit * tens
  let high := (4 * b.mantissa + 2) * unit * tens
  let step := ten * units
  let readsBack (digits : Nat) : Bool :=
    digits > 0 &&
      if b.mantissa % 2 = 0 then low ≤ digits * step && digits * step ≤ high
      else low < digits * step && digits * step < high
  let below := value / step
  match readsBack below, readsBack (below + 1) with
  | true, true =>
    let middle := (2 * below + 1) * step
    if 2 * value < middle || (2 * value == middle && below % 2 = 0) then some below
    else some (below + 1)
  | true, false => some below
  | false, true => some (below + 1)
  | false, false => none

/-- Digits and the power of ten they count. A single-precision number is below
10 ^ 39, and ten digits more than its smallest place needs are never reached. -/
def shortest (b : Binary) : Nat × Int :=
  let grids := (List.range 100).map fun (i : Nat) => 40 - (i : Int)
  if b.mantissa = 0 then (0, 0)
  else (grids.findSome? fun grid => (onGrid b grid).map (·, grid)).getD (0, 0)

def zeros (n : Nat) : Text := List.replicate n '0'

def exponent (power : Int) : Text :=
  'e' :: if power < 0 then Text.integer power else '+' :: Text.integer power

/-- Positional from 10 ^ -6 up to 10 ^ 13, always with a point and a digit on each
side of it; beyond that one digit, a point if more follow, and the exponent
with its sign. -/
def numeral (b : Binary) : Text :=
  let (count, grid) := shortest b
  let digits := Text.natural count
  let point := digits.length + grid
  let body :=
    if count = 0 then "0.0".toList
    else if 0 ≤ grid ∧ point ≤ 13 then digits ++ zeros grid.toNat ++ ".0".toList
    else if 0 < point ∧ point ≤ 13 then
      digits.take point.toNat ++ '.' :: digits.drop point.toNat
    else if -6 < point ∧ point ≤ 0 then "0.".toList ++ zeros point.natAbs ++ digits
    else
      digits.take 1 ++ (if digits.length = 1 then [] else '.' :: digits.drop 1) ++
        exponent (point - 1)
  if b.negative then '-' :: body else body

def numeral? (x : Float32) : Option Text :=
  if x.isFinite then some (numeral (single x)) else none

/-- The nearest whole number to a fraction, a half to the even neighbour. -/
def nearest (top bottom : Nat) : Nat :=
  let below := top / bottom
  let twice := 2 * (top % bottom)
  if twice < bottom || (twice == bottom && below % 2 = 0) then below else below + 1

/-- The sign stays even where all digits are zero. -/
def fixed (places : Nat) (b : Binary) : Text :=
  let (unit, units) := power 2 b.exponent
  let one := Nat.pow 10 places
  let scaled := nearest (b.mantissa * unit * one) units
  let tail := Text.natural (scaled % one)
  let body := Text.natural (scaled / one) ++ '.' :: zeros (places - tail.length) ++ tail
  if b.negative then '-' :: body else body

/-- digits · 10 ^ exponent. Far outside the range of the type the answer is zero
or infinity without the power being formed. -/
def read (negative : Bool) (digits : Nat) (exponent : Int) : Float :=
  let size := (Text.natural digits).length + exponent
  let magnitude : Float :=
    if digits = 0 ∨ size < -400 then 0
    else if 400 < size then 1 / 0
    else Float.ofScientific digits (exponent < 0) exponent.natAbs
  if negative then -magnitude else magnitude

end CardCatalog.Decimal
