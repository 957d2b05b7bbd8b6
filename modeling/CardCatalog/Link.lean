import CardCatalog.Text.Basic

/-!
Links to a search. The query string names the query, the selected document types in
their order and a sort specification, if there is one; everything but letters, digits
and `-_.~` is percent-encoded octet by octet. `parameters?` reads such a string back. A
link is a `QueryParams`, with `to_query_string` and `page_link_prefix`; the encoding
comes from a library.
-/

namespace CardCatalog

structure Link where
  query : Text
  types : List Text
  sort : Option Text
  deriving DecidableEq

namespace Link

def isOpen (n : Nat) : Bool :=
  (48 ≤ n && n ≤ 57) || (65 ≤ n && n ≤ 90) || (97 ≤ n && n ≤ 122) ||
    n = 45 || n = 46 || n = 95 || n = 126

def hexDigit (n : Nat) : Char := if n < 10 then Char.ofNat (48 + n) else Char.ofNat (55 + n)

def encodeOctet (octet : UInt8) : Text :=
  let n := octet.toNat
  if isOpen n then [Char.ofNat n] else ['%', hexDigit (n / 16), hexDigit (n % 16)]

def encode (t : Text) : Text := (Text.octets t).flatMap encodeOctet

/-- An empty sort specification is none. -/
def sortSpec (link : Link) : Option Text := link.sort.filter (!·.isEmpty)

def queryString (link : Link) : Text :=
  "?q=".toList ++ encode link.query ++
    link.types.flatMap (fun type => "&index=".toList ++ encode type) ++
    (link.sortSpec.map fun sort => "&sort=".toList ++ encode sort).getD []

/-- A page number goes behind it. -/
def pageStem (link : Link) : Text := link.queryString ++ "&page=".toList

def hexValue? (c : Char) : Option Nat :=
  if '0' ≤ c ∧ c ≤ '9' then some (c.toNat - 48)
  else if 'A' ≤ c ∧ c ≤ 'F' then some (c.toNat - 55)
  else if 'a' ≤ c ∧ c ≤ 'f' then some (c.toNat - 87)
  else none

def octets? : Text → Option (List UInt8)
  | [] => some []
  | '%' :: high :: low :: rest =>
    match hexValue? high, hexValue? low, octets? rest with
    | some a, some b, some octets => some ((16 * a + b).toUInt8 :: octets)
    | _, _, _ => none
  | c :: rest =>
    if c.toNat < 128 then (octets? rest).map (c.toNat.toUInt8 :: ·) else none

def decode? (t : Text) : Option Text :=
  (octets? t).bind fun octets => (ByteArray.utf8Decode? ⟨octets.toArray⟩).map (·.toList)

def pair? (t : Text) : Option (Text × Text) :=
  let name := t.takeWhile (· != '=')
  match decode? name, decode? (t.drop (name.length + 1)) with
  | some name, some value => some (name, value)
  | _, _ => none

def parameters? : Text → Option (List (Text × Text))
  | '?' :: rest => (Text.splitOn (· = '&') rest).mapM pair?
  | _ => none

end Link

end CardCatalog
