import CardCatalog.Json
import CardCatalog.Toml.Basic

/-!
The scalars of TOML 1.1: strings in their four forms, integers in four bases,
floating-point numbers, booleans, and dates with or without a time, which are
kept as text in one normal form.
-/

namespace CardCatalog.Toml

def isBare (c : Char) : Bool :=
  Text.isDigit c || ('a' ≤ c && c ≤ 'z') || ('A' ≤ c && c ≤ 'Z') || c = '_' || c = '-'

/-- What may stand unescaped: the tab is the only control character among it. -/
def isPlain (c : Char) : Bool := c = '\t' || (0x20 ≤ c.toNat && c.toNat != 0x7F)

def isGap (c : Char) : Bool := c = ' ' || c = '\t'

def skipGap (t : Text) : Text := t.dropWhile isGap

def newline? : Text → Option Text
  | '\n' :: rest => some rest
  | '\r' :: '\n' :: rest => some rest
  | _ => none

/-! Strings -/

def scalarOf? (n : Nat) : Option Char :=
  if n < 0xD800 ∨ (0xDFFF < n ∧ n < 0x110000) then some (Char.ofNat n) else none

def hexChar? (count : Nat) (t : Text) : Option (Char × Text) :=
  if t.length < count then none
  else ((Json.hex? (t.take count)).bind scalarOf?).map (·, t.drop count)

def escape? : Text → Option (Char × Text)
  | 'b' :: rest => some ('\x08', rest)
  | 't' :: rest => some ('\t', rest)
  | 'n' :: rest => some ('\n', rest)
  | 'f' :: rest => some ('\x0c', rest)
  | 'r' :: rest => some ('\r', rest)
  | 'e' :: rest => some ('\x1b', rest)
  | '"' :: rest => some ('"', rest)
  | '\\' :: rest => some ('\\', rest)
  | 'x' :: rest => hexChar? 2 rest
  | 'u' :: rest => hexChar? 4 rest
  | 'U' :: rest => hexChar? 8 rest
  | _ => none

/-- The counts bound the number of characters read; the length of the text is
always enough. -/
def basic? : Nat → Text → Option (Text × Text)
  | _, [] | 0, _ => none
  | _, '"' :: rest => some ([], rest)
  | fuel + 1, '\\' :: rest =>
    (escape? rest).bind fun (c, rest) => (basic? fuel rest).map fun out => (c :: out.1, out.2)
  | fuel + 1, c :: rest =>
    if isPlain c then (basic? fuel rest).map fun out => (c :: out.1, out.2) else none

def literal? (t : Text) : Option (Text × Text) :=
  let body := t.takeWhile fun c => isPlain c && c != '\''
  match t.drop body.length with
  | '\'' :: rest => some (body, rest)
  | _ => none

/-- Three quotes close a long string; up to two more right before them are part
of its text. -/
def closing? (quote : Char) (t : Text) : Option (Text × Text) :=
  let count := (t.takeWhile (· = quote)).length
  if count < 3 then none
  else
    let kept := min (count - 3) 2
    some (t.take kept, t.drop (kept + 3))

def skipBreaks : Nat → Text → Text
  | 0, t => t
  | fuel + 1, t =>
    match newline? (skipGap t) with
    | some rest => skipBreaks fuel rest
    | none => skipGap t

/-- Behind a backslash: if nothing else follows on the line, the next character
that is no blank and no line end. -/
def continued? (t : Text) : Option Text :=
  (newline? (skipGap t)).map fun rest => skipBreaks (rest.length + 1) rest

def longBasic? : Nat → Text → Option (Text × Text)
  | _, [] | 0, _ => none
  | fuel + 1, c :: rest =>
    match closing? '"' (c :: rest) with
    | some out => some out
    | none =>
      if c = '\\' then
        match continued? rest with
        | some rest => longBasic? fuel rest
        | none =>
          (escape? rest).bind fun (c, rest) =>
            (longBasic? fuel rest).map fun out => (c :: out.1, out.2)
      else if isPlain c || c = '\n' || (c = '\r' && rest.head? == some '\n') then
        (longBasic? fuel rest).map fun out => (c :: out.1, out.2)
      else none

def longLiteral? : Text → Option (Text × Text)
  | [] => none
  | c :: rest =>
    match closing? '\'' (c :: rest) with
    | some out => some out
    | none =>
      if isPlain c || c = '\n' || (c = '\r' && rest.head? == some '\n') then
        (longLiteral? rest).map fun out => (c :: out.1, out.2)
      else none

/-- A line end right behind the opening quotes is not part of the text. -/
def afterOpening (t : Text) : Text := (newline? t).getD t

def string? : Text → Option (Text × Text)
  | '"' :: '"' :: '"' :: rest => longBasic? (rest.length + 1) (afterOpening rest)
  | '\'' :: '\'' :: '\'' :: rest => longLiteral? (afterOpening rest)
  | '"' :: rest => basic? (rest.length + 1) rest
  | '\'' :: rest => literal? rest
  | _ => none

/-! Numbers -/

/-- Digits of a class, single low lines between them. -/
def grouped? (p : Char → Bool) (t : Text) : Option Text :=
  let groups := Text.splitOn (· = '_') t
  if groups.all fun group => !group.isEmpty && group.all p then some groups.flatten else none

def signed : Text → Bool × Text
  | '-' :: rest => (true, rest)
  | '+' :: rest => (false, rest)
  | t => (false, t)

def decimal? (t : Text) : Option Text :=
  (grouped? Text.isDigit t).filter fun digits => !(digits.head? == some '0' && digits.length > 1)

def inBase (base : Nat) (digits : Text) : Nat :=
  digits.foldl (fun n c => base * n + (Json.hexValue? c).getD 0) 0

def integer? (t : Text) : Option Int :=
  let based (base : Nat) (rest : Text) : Option Int :=
    (grouped? (fun c => (Json.hexValue? c).any (· < base)) rest).map fun digits =>
      (inBase base digits : Int)
  match t with
  | '0' :: 'x' :: rest => based 16 rest
  | '0' :: 'o' :: rest => based 8 rest
  | '0' :: 'b' :: rest => based 2 rest
  | _ =>
    let (negative, rest) := signed t
    (decimal? rest).map fun digits =>
      if negative then -(Text.number digits : Int) else Text.number digits

def float? (t : Text) : Option Toml :=
  let (negative, rest) := signed t
  if rest = "inf".toList then some (float (if negative then -(1 / 0) else 1 / 0))
  else if rest = "nan".toList then some (float (0 / 0))
  else
    let isE (c : Char) : Bool := c = 'e' || c = 'E'
    let mantissa := rest.takeWhile fun c => !isE c
    let power? : Option Int :=
      match rest.dropWhile fun c => !isE c with
      | [] => some 0
      | _ :: power =>
        let (below, digits) := signed power
        (grouped? Text.isDigit digits).map fun digits =>
          if below then -(Text.number digits : Int) else Text.number digits
    let whole := mantissa.takeWhile (· != '.')
    let fraction? : Option Text :=
      match mantissa.drop whole.length with
      | [] => some []
      | _ :: fraction => grouped? Text.isDigit fraction
    match decimal? whole, fraction?, power? with
    | some whole, some fraction, some power =>
      let x := Decimal.read negative (Text.number (whole ++ fraction)) (power - fraction.length)
      some (if x.isInf then boundless else float x)
    | _, _, _ => none

/-! Dates -/

/-- Each part of a date is given as it is written in the normal form, with what
stands behind it. -/
def pair? (t : Text) : Option (Nat × Text) :=
  let head := t.take 2
  if head.length = 2 ∧ head.all Text.isDigit then some (Text.number head, t.drop 2) else none

def expect? (c : Char) : Text → Option Text
  | [] => none
  | d :: rest => if d = c then some rest else none

def monthLength (year month : Nat) : Nat :=
  match month with
  | 2 => if year % 4 = 0 ∧ (year % 100 ≠ 0 ∨ year % 400 = 0) then 29 else 28
  | 4 | 6 | 9 | 11 => 30
  | _ => 31

def day? (t : Text) : Option (Text × Text) := do
  let head := t.take 4
  guard (head.length = 4 ∧ head.all Text.isDigit)
  let (month, rest) ← pair? (← expect? '-' (t.drop 4))
  let (day, rest) ← pair? (← expect? '-' rest)
  guard (1 ≤ month ∧ month ≤ 12 ∧ 1 ≤ day ∧ day ≤ monthLength (Text.number head) month)
  return (t.take 10, rest)

/-- Nine places at most, without zeros at the end, but at least one. -/
def places (digits : Text) : Text :=
  let kept := ((digits.take 9).reverse.dropWhile (· = '0')).reverse
  if kept.isEmpty then ['0'] else kept

def time? (t : Text) : Option (Text × Text) := do
  let (hour, rest) ← pair? t
  let (minute, rest) ← pair? (← expect? ':' rest)
  guard (hour ≤ 23 ∧ minute ≤ 59)
  match rest with
  | ':' :: rest =>
    let (second, rest) ← pair? rest
    guard (second ≤ 60)
    match rest with
    | '.' :: rest =>
      let digits := rest.takeWhile Text.isDigit
      guard (!digits.isEmpty)
      return (t.take 8 ++ '.' :: places digits, rest.drop digits.length)
    | _ => return (t.take 8, rest)
  | _ => return (t.take 5, rest)

/-- Behind a time and through the end; no distance at all has a plus. -/
def offset? (t : Text) : Option Text :=
  match t with
  | [] => some []
  | [c] => if c = 'Z' ∨ c = 'z' then some ['Z'] else none
  | c :: rest => do
    guard (c = '+' ∨ c = '-')
    let (hour, after) ← pair? rest
    let (minute, after) ← pair? (← expect? ':' after)
    guard (hour ≤ 23 ∧ minute ≤ 59 ∧ after.isEmpty)
    return (if hour = 0 ∧ minute = 0 then '+' else c) :: rest

def date? (t : Text) : Option Text :=
  match day? t with
  | some (day, []) => some day
  | some (day, c :: rest) => do
    guard (c = 'T' ∨ c = 't' ∨ c = ' ')
    let (time, rest) ← time? rest
    return day ++ 'T' :: time ++ (← offset? rest)
  | none => (time? t).bind fun (time, rest) => if rest.isEmpty then some time else none

/-! Any of them that is not a string -/

def isScalarChar (c : Char) : Bool := isBare c || c = '+' || c = '.' || c = ':'

def ofRun? (run : Text) : Option Toml :=
  if run = "true".toList then some (boolean true)
  else if run = "false".toList then some (boolean false)
  else ((integer? run).map integer).or ((float? run).or ((date? run).map date))

/-- A blank between a day and a time belongs to the date. -/
def scalar? (t : Text) : Option (Toml × Text) :=
  let run := t.takeWhile isScalarChar
  let rest := t.drop run.length
  let time := match rest with
    | ' ' :: c :: _ =>
      if (day? run).any (·.2.isEmpty) && Text.isDigit c then
        ' ' :: (rest.drop 1).takeWhile isScalarChar
      else []
    | _ => []
  let run := run ++ time
  (ofRun? run).map (·, t.drop run.length)

end CardCatalog.Toml
