import CardCatalog.Decimal
import CardCatalog.Dict
import CardCatalog.Word

/-!
JSON values, their reader and their two printers. An object keeps its members in the
order of the text, repeated names included: what a repetition means is for whoever reads
the object. A number keeps the digits it was written with. A string that names half a
surrogate pair is no text; it is read as `unreadable`, and so is an object that has such
a name. Reader and printers are those of the program's JSON library.
-/

namespace CardCatalog

inductive Json where
  | null
  | bool (b : Bool)
  | number (numeral : Text)
  | string (t : Text)
  | unreadable
  | array (items : List Json)
  | object (members : List (Text × Json))

namespace Json

def nat (n : Nat) : Json := number (Text.natural n)

def int (n : Int) : Json := number (Text.integer n)

/-- What is not finite has no numeral and is written as null. -/
def single (x : Float32) : Json := ((Decimal.numeral? x).map number).getD null

def texts (ts : List Text) : Json := array (ts.map string)

def optional {α : Type} (f : α → Json) (a : Option α) : Json := (a.map f).getD null

def dict (d : Dict Text) : Json := object (d.entries.map fun e => (e.1, string e.2))

/-! Reading -/

def isSpace (c : Char) : Bool := c = ' ' || c = '\t' || c = '\n' || c = '\r'

def skip (t : Text) : Text := t.dropWhile isSpace

def hexValue? (c : Char) : Option Nat :=
  if '0' ≤ c ∧ c ≤ '9' then some (c.toNat - '0'.toNat)
  else if 'a' ≤ c ∧ c ≤ 'f' then some (c.toNat - 'a'.toNat + 10)
  else if 'A' ≤ c ∧ c ≤ 'F' then some (c.toNat - 'A'.toNat + 10)
  else none

def hex? (digits : Text) : Option Nat :=
  digits.foldl (fun n c => n.bind fun n => (hexValue? c).map (16 * n + ·)) (some 0)

def escaped? (c : Char) : Option Char :=
  match c with
  | '"' => some '"'
  | '\\' => some '\\'
  | '/' => some '/'
  | 'b' => some '\x08'
  | 'f' => some '\x0c'
  | 'n' => some '\n'
  | 'r' => some '\r'
  | 't' => some '\t'
  | _ => none

/-- The 16-bit units and characters of a string, before surrogates are paired. -/
inductive Unit where
  | char (c : Char)
  | half (n : Nat)

/-- Behind the opening quote, through the closing one. -/
def units : Text → Option (List Unit × Text)
  | [] => none
  | '"' :: rest => some ([], rest)
  | '\\' :: 'u' :: a :: b :: c :: d :: rest =>
    match hex? [a, b, c, d] with
    | none => none
    | some n =>
      let unit := if 0xD800 ≤ n ∧ n ≤ 0xDFFF then Unit.half n else .char (Char.ofNat n)
      (units rest).map fun found => (unit :: found.1, found.2)
  | '\\' :: c :: rest =>
    match escaped? c with
    | none => none
    | some c => (units rest).map fun found => (.char c :: found.1, found.2)
  | c :: rest =>
    if c.toNat < 0x20 then none
    else (units rest).map fun found => (.char c :: found.1, found.2)

def pair? : List Unit → Option Text
  | [] => some []
  | .char c :: rest => (pair? rest).map (c :: ·)
  | .half high :: .half low :: rest =>
    if high < 0xDC00 ∧ 0xDC00 ≤ low then
      (pair? rest).map (Char.ofNat (0x10000 + (high - 0xD800) * 0x400 + (low - 0xDC00)) :: ·)
    else none
  | .half _ :: _ => none

def digits (t : Text) : Text := t.takeWhile Text.isDigit

/-- An integer part without leading zeros, then a fraction and an exponent, each
with at least one digit. -/
def numeral? (t : Text) : Option (Text × Text) :=
  let (sign, t) := match t with
    | '-' :: rest => (['-'], rest)
    | _ => ([], t)
  let whole := digits t
  let t := t.drop whole.length
  if whole.isEmpty || (whole.head? == some '0' && whole.length > 1) then none
  else
    let fraction? := match t with
      | '.' :: rest => if (digits rest).isEmpty then none else some ('.' :: digits rest)
      | _ => some []
    fraction?.bind fun fraction =>
      let t := t.drop fraction.length
      let exponent? := match t with
        | e :: rest =>
          if e = 'e' ∨ e = 'E' then
            let sign := rest.take 1 |>.filter fun c => c = '+' || c = '-'
            let power := digits (rest.drop sign.length)
            if power.isEmpty then none else some (e :: sign ++ power)
          else some []
        | [] => some []
      exponent?.map fun exponent =>
        (sign ++ whole ++ fraction ++ exponent, t.drop exponent.length)

def literals : List (Text × Json) :=
  [("null".toList, null), ("true".toList, bool true), ("false".toList, bool false)]

def literal? (t : Text) : Option (Json × Text) :=
  literals.findSome? fun word =>
    if Text.startsWith t word.1 then some (word.2, t.drop word.1.length) else none

def member? (name : List Unit) (value : Json) : Option (Text × Json) :=
  (pair? name).map (·, value)

mutual

/-- The count bounds the nesting; a reader that starts with the length of the
text never runs out. -/
def value? : Nat → Text → Option (Json × Text)
  | 0, _ => none
  | fuel + 1, t =>
    match skip t with
    | '"' :: rest =>
      (units rest).map fun found => (((pair? found.1).map string).getD unreadable, found.2)
    | '[' :: rest =>
      match skip rest with
      | ']' :: after => some (array [], after)
      | _ => (items? fuel rest).map fun found => (array found.1, found.2)
    | '\x7b' :: rest =>
      match skip rest with
      | '\x7d' :: after => some (object [], after)
      | _ => (members? fuel rest).map fun found =>
          (((found.1.mapM fun m => member? m.1 m.2).map object).getD unreadable, found.2)
    | t => (literal? t).or ((numeral? t).map fun found => (number found.1, found.2))

def items? : Nat → Text → Option (List Json × Text)
  | 0, _ => none
  | fuel + 1, t =>
    match value? fuel t with
    | none => none
    | some (item, rest) =>
      match skip rest with
      | ',' :: rest => (items? fuel rest).map fun found => (item :: found.1, found.2)
      | ']' :: rest => some ([item], rest)
      | _ => none

def members? : Nat → Text → Option (List (List Unit × Json) × Text)
  | 0, _ => none
  | fuel + 1, t =>
    match skip t with
    | '"' :: rest =>
      match units rest with
      | none => none
      | some (name, rest) =>
        match skip rest with
        | ':' :: rest =>
          match value? fuel rest with
          | none => none
          | some (value, rest) =>
            match skip rest with
            | ',' :: rest =>
              (members? fuel rest).map fun found => ((name, value) :: found.1, found.2)
            | '\x7d' :: rest => some ([(name, value)], rest)
            | _ => none
        | _ => none
    | _ => none

end

def read? (t : Text) : Option Json :=
  match value? (2 * t.length + 2) t with
  | some (value, rest) => if (skip rest).isEmpty then some value else none
  | none => none

/-! Looking into a value -/

def text? : Json → Option Text
  | string t => some t
  | _ => none

def isNull : Json → Bool
  | null => true
  | _ => false

/-- Of repeated names the last one counts. -/
def member (name : Text) : Json → Option Json
  | object members => (members.reverse.find? (·.1 == name)).map (·.2)
  | _ => none

/-- A numeral with a fraction or an exponent is no integer, and neither is -0,
which only a floating-point number tells from 0. -/
def int? : Json → Option Int
  | number ('-' :: digits) =>
    if digits.all Text.isDigit && digits != ['0'] then some (-(Text.number digits : Int)) else none
  | number digits => if digits.all Text.isDigit then some (Text.number digits) else none
  | _ => none

def word? (j : Json) : Option Int := j.int?.filter Word.holdsSigned

/-! Writing -/

def hexDigit (n : Nat) : Char := (Nat.digitChar n)

def escape (c : Char) : Text :=
  match c with
  | '"' => ['\\', '"']
  | '\\' => ['\\', '\\']
  | '\x08' => ['\\', 'b']
  | '\x0c' => ['\\', 'f']
  | '\n' => ['\\', 'n']
  | '\r' => ['\\', 'r']
  | '\t' => ['\\', 't']
  | c =>
    if c.toNat < 0x20 then
      ['\\', 'u', '0', '0', hexDigit (c.toNat / 16), hexDigit (c.toNat % 16)]
    else [c]

def quoted (t : Text) : Text := '"' :: t.flatMap escape ++ ['"']

def scalar : Json → Text
  | null => "null".toList
  | bool true => "true".toList
  | bool false => "false".toList
  | number numeral => numeral
  | string t => quoted t
  | _ => "null".toList

mutual

def compact : Json → Text
  | array items => '[' :: compactItems items ++ [']']
  | object members => '\x7b' :: compactMembers members ++ ['\x7d']
  | j => scalar j

def compactItems : List Json → Text
  | [] => []
  | [item] => compact item
  | item :: rest => compact item ++ ',' :: compactItems rest

def compactMembers : List (Text × Json) → Text
  | [] => []
  | [(name, value)] => quoted name ++ ':' :: compact value
  | (name, value) :: rest => quoted name ++ ':' :: compact value ++ ',' :: compactMembers rest

end

def indent (depth : Nat) : Text := '\n' :: List.replicate (2 * depth) ' '

mutual

/-- One item a line, two blanks for each level; an empty container stays on its
line. -/
def pretty (depth : Nat) : Json → Text
  | array [] => ['[', ']']
  | array items => '[' :: prettyItems (depth + 1) items ++ indent depth ++ [']']
  | object [] => ['\x7b', '\x7d']
  | object members => '\x7b' :: prettyMembers (depth + 1) members ++ indent depth ++ ['\x7d']
  | j => scalar j

def prettyItems (depth : Nat) : List Json → Text
  | [] => []
  | [item] => indent depth ++ pretty depth item
  | item :: rest => indent depth ++ pretty depth item ++ ',' :: prettyItems depth rest

def prettyMembers (depth : Nat) : List (Text × Json) → Text
  | [] => []
  | [(name, value)] => indent depth ++ quoted name ++ ": ".toList ++ pretty depth value
  | (name, value) :: rest =>
    indent depth ++ quoted name ++ ": ".toList ++ pretty depth value ++
      ',' :: prettyMembers depth rest

end

end Json

end CardCatalog
