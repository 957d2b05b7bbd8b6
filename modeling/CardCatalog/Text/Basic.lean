import CardCatalog.Text.Alphabet

/-!
A text is a list of characters. Words are its maximal runs without blanks; blank means
the White_Space property everywhere in this library. Joining the words by single spaces
collapses a text, and a collapsed text stays as it is. Trimming and splitting are those
of the program's strings.
-/

namespace CardCatalog

abbrev Text := List Char

namespace Text

def isBlank (c : Char) : Bool := Alphabet.blank.has c

def isAlphanumeric (c : Char) : Bool :=
  Alphabet.alphabetic.has c || Alphabet.decimalDigit.has c || Alphabet.otherNumber.has c

/-- What a word boundary separates from everything else: letters, marks, decimal
digits, connectors and joiners. Fractions and superscripts are not in it, and
neither are the latest letters. -/
def isWordChar (c : Char) : Bool :=
  !Alphabet.latest.has c &&
    (Alphabet.alphabetic.has c || Alphabet.mark.has c || Alphabet.decimalDigit.has c ||
      Alphabet.connector.has c || Alphabet.joiner.has c)

/-- The ten digits of ASCII and no others. -/
def isDigit (c : Char) : Bool := '0' ≤ c && c ≤ '9'

def digitValue (c : Char) : Nat := c.toNat - '0'.toNat

def number (digits : Text) : Nat := digits.foldl (fun n c => 10 * n + digitValue c) 0

def natural (n : Nat) : Text := Nat.toDigits 10 n

def integer (n : Int) : Text :=
  if n < 0 then '-' :: natural n.natAbs else natural n.natAbs

def prepend (c : Char) : List Text → List Text
  | [] => [[c]]
  | piece :: pieces => (c :: piece) :: pieces

def splitOn (p : Char → Bool) : Text → List Text
  | [] => [[]]
  | c :: rest => if p c then [] :: splitOn p rest else prepend c (splitOn p rest)

def words (t : Text) : List Text := (splitOn isBlank t).filter (!·.isEmpty)

def joined (separator : Text) : List Text → Text
  | [] => []
  | [piece] => piece
  | piece :: rest => piece ++ separator ++ joined separator rest

def collapse (t : Text) : Text := joined [' '] (words t)

/-- Both ends lose every character of the class; the middle keeps them. -/
def stripped (p : Char → Bool) (t : Text) : Text :=
  ((t.dropWhile p).reverse.dropWhile p).reverse

def trim (t : Text) : Text := stripped isBlank t

def isQuote (c : Char) : Bool := c = '"'

def octets (t : Text) : List UInt8 := t.flatMap String.utf8EncodeChar

def octetCount (t : Text) : Nat := (octets t).length

def startsWith (t start : Text) : Bool := start.isPrefixOf t

theorem flatten_prepend (c : Char) (pieces : List Text) :
    (prepend c pieces).flatten = c :: pieces.flatten := by
  cases pieces <;> simp [prepend]

theorem splitOn_ne_nil (p : Char → Bool) (t : Text) : splitOn p t ≠ [] := by
  cases t with
  | nil => simp [splitOn]
  | cons c rest =>
    by_cases separator : p c
    · simp [splitOn, separator]
    · cases pieces : splitOn p rest <;> simp [splitOn, separator, pieces, prepend]

theorem joined_cons_cons (separator piece next : Text) (rest : List Text) :
    joined separator (piece :: next :: rest) =
      piece ++ separator ++ joined separator (next :: rest) := rfl

/-- Splitting loses nothing but the separators themselves. -/
theorem flatten_splitOn (p : Char → Bool) (t : Text) :
    (splitOn p t).flatten = t.filter (!p ·) := by
  induction t with
  | nil => simp [splitOn]
  | cons c rest ih =>
    by_cases separator : p c <;> simp [splitOn, separator, flatten_prepend, ih]

theorem splitOn_append {p : Char → Bool} {c : Char} (separator : p c = true) (before after : Text) :
    splitOn p (before ++ c :: after) = splitOn p before ++ splitOn p after := by
  induction before with
  | nil => simp [splitOn, separator]
  | cons a rest ih =>
    by_cases other : p a
    · simp [splitOn, other, ih]
    · cases pieces : splitOn p rest with
      | nil => exact absurd pieces (splitOn_ne_nil p rest)
      | cons piece more => simp [splitOn, other, ih, pieces, prepend]

theorem splitOn_eq_self {p : Char → Bool} {t : Text} (none : ∀ c ∈ t, p c = false) :
    splitOn p t = [t] := by
  induction t with
  | nil => rfl
  | cons c rest ih =>
    have tail := ih fun d member => none d (List.mem_cons_of_mem c member)
    simp [splitOn, none c (by simp), tail, prepend]

theorem mem_splitOn {p : Char → Bool} {t piece : Text} (member : piece ∈ splitOn p t) :
    ∀ c ∈ piece, p c = false := by
  induction t generalizing piece with
  | nil => simp_all [splitOn]
  | cons d rest ih =>
    by_cases separator : p d
    · rcases List.mem_cons.mp (by simpa [splitOn, separator] using member) with same | old
      · simp [same]
      · exact ih old
    · cases pieces : splitOn p rest with
      | nil => exact absurd pieces (splitOn_ne_nil p rest)
      | cons first more =>
        have found : piece = d :: first ∨ piece ∈ more := by
          simpa [splitOn, separator, pieces, prepend] using member
        rcases found with same | old
        · have low : ∀ c ∈ first, p c = false := ih (by simp [pieces])
          intro c inside
          rcases List.mem_cons.mp (same ▸ inside) with head | tail
          · simpa [head] using separator
          · exact low c tail
        · exact ih (by simp [pieces, old])

/-- Words do not reach across a blank, which is all there is to them. -/
theorem words_append {c : Char} (blank : isBlank c = true) (before after : Text) :
    words (before ++ c :: after) = words before ++ words after := by
  simp [words, splitOn_append blank]

theorem mem_words {t w : Text} (member : w ∈ words t) : w ≠ [] ∧ ∀ c ∈ w, isBlank c = false := by
  obtain ⟨piece, kept⟩ := List.mem_filter.mp member
  exact ⟨by simpa using kept, mem_splitOn piece⟩

theorem words_self {w : Text} (some : w ≠ []) (solid : ∀ c ∈ w, isBlank c = false) :
    words w = [w] := by
  simp [words, splitOn_eq_self solid, some]

theorem words_joined {ws : List Text} (solid : ∀ w ∈ ws, w ≠ [] ∧ ∀ c ∈ w, isBlank c = false) :
    words (joined [' '] ws) = ws := by
  induction ws with
  | nil => rfl
  | cons w rest ih =>
    obtain ⟨some, clear⟩ := solid w (by simp)
    have tail := ih fun v member => solid v (List.mem_cons_of_mem w member)
    cases rest with
    | nil => exact words_self some clear
    | cons v more =>
      rw [joined_cons_cons, List.append_assoc, List.singleton_append, words_append (by decide),
        words_self some clear, tail]
      rfl

theorem words_collapse (t : Text) : words (collapse t) = words t :=
  words_joined fun _ member => mem_words member

/-- What is collapsed stays as it is. -/
theorem collapse_collapse (t : Text) : collapse (collapse t) = collapse t := by
  rw [collapse, words_collapse, ← collapse]

end Text

end CardCatalog
