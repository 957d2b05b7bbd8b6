/-!
The 64-bit words that counts, page numbers and years have to fit in. Where a sum
or a product could leave them it stops at the greatest word.
-/

namespace CardCatalog.Word

def greatest : Nat := 0xFFFFFFFFFFFFFFFF

def add (a b : Nat) : Nat := min (a + b) greatest

def mul (a b : Nat) : Nat := min (a * b) greatest

/-! Words with a sign -/

def lowestSigned : Int := -0x8000000000000000

def highestSigned : Int := 0x7FFFFFFFFFFFFFFF

def holdsSigned (n : Int) : Bool := lowestSigned ≤ n && n ≤ highestSigned

end CardCatalog.Word
