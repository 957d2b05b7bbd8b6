import CardCatalog.Link
import CardCatalog.Proofs.Text.Joined

/-!
Links, read back. What is encoded is decoded to itself, for every text; what is
encoded has no separator in it, so that the pairs of a query string come apart
where they were put together.
-/

namespace CardCatalog

theorem Text.splitOn_joined {p : Char → Bool} {c : Char} (separator : p c = true) {ts : List Text}
    (filled : ts ≠ []) (free : ∀ t ∈ ts, ∀ d ∈ t, p d = false) :
    splitOn p (joined [c] ts) = ts := by
  obtain ⟨t, rest, rfl⟩ := List.exists_cons_of_ne_nil filled
  induction rest generalizing t with
  | nil => exact splitOn_eq_self (free t (by simp))
  | cons next rest ih =>
    have first : ∀ d ∈ t, p d = false := free t (by simp)
    have tail := ih next (by simp) fun s member => free s (List.mem_cons_of_mem t member)
    rw [joined_cons_cons, List.append_assoc, List.singleton_append, splitOn_append separator, tail,
      splitOn_eq_self first, List.singleton_append]

theorem Text.isDigit_of_mem_natural {n : Nat} {c : Char} (member : c ∈ natural n) :
    isDigit c = true := by
  have digit := Nat.isDigit_of_mem_toDigits (by decide) (by decide) member
  simpa [Char.isDigit, isDigit, Char.le_def] using digit

theorem Text.number_natural (n : Nat) : number (natural n) = n := Nat.ofDigitChars_ten_toDigits

namespace Link

section Octets

theorem hexValue?_hexDigit : ∀ n < 16, hexValue? (hexDigit n) = some n := by decide

theorem open_plain : ∀ n < 256, isOpen n = true → (Char.ofNat n).toNat = n ∧ n < 128 ∧ n ≠ 37 := by
  decide +kernel

theorem octets?_plain {c : Char} (plain : c ≠ '%') (small : c.toNat < 128) (rest : Text) :
    octets? (c :: rest) = (octets? rest).map (c.toNat.toUInt8 :: ·) := by
  rw [octets?]
  · rw [if_pos small]
  · intro high low more percent
    exact absurd percent plain

theorem octets?_escape {high low : Char} {a b : Nat} (first : hexValue? high = some a)
    (second : hexValue? low = some b) (rest : Text) :
    octets? ('%' :: high :: low :: rest) = (octets? rest).map ((16 * a + b).toUInt8 :: ·) := by
  rw [octets?, first, second]
  cases octets? rest <;> rfl

theorem octets?_encodeOctet (octet : UInt8) (rest : Text) :
    octets? (encodeOctet octet ++ rest) = (octets? rest).map (octet :: ·) := by
  have bound : octet.toNat < 256 := octet.toNat_lt
  have back : octet.toNat.toUInt8 = octet := by simp
  by_cases written : isOpen octet.toNat = true
  · obtain ⟨same, small, other⟩ := open_plain octet.toNat bound written
    have plain : Char.ofNat octet.toNat ≠ '%' := by
      intro percent
      rw [percent] at same
      exact other same.symm
    have step := octets?_plain plain (by omega) rest
    rw [same, back] at step
    simp only [encodeOctet, if_pos written]
    exact step
  · have step := octets?_escape (hexValue?_hexDigit (octet.toNat / 16) (by omega))
      (hexValue?_hexDigit (octet.toNat % 16) (by omega)) rest
    rw [Nat.div_add_mod, back] at step
    simp only [encodeOctet, if_neg written]
    exact step

theorem octets?_encoded (octets : List UInt8) : octets? (octets.flatMap encodeOctet) = some octets := by
  induction octets with
  | nil => rfl
  | cons octet rest ih => rw [List.flatMap_cons, octets?_encodeOctet, ih, Option.map_some]

end Octets

/-- Every text comes back from its percent-encoding. -/
theorem decode?_encode (t : Text) : decode? (encode t) = some t := by
  have bytes : ByteArray.mk (Text.octets t).toArray = List.utf8Encode t :=
    ByteArray.ext (List.data_toByteArray).symm
  rw [decode?, encode, octets?_encoded, Option.bind_some, bytes, List.utf8Decode?_utf8Encode]
  rfl

theorem encode_chars {t : Text} {c : Char} (member : c ∈ encode t) :
    isOpen c.toNat = true ∨ c = '%' := by
  have all : ∀ n < 256,
      ((encodeOctet (UInt8.ofNat n)).all fun d => isOpen d.toNat || d == '%') = true := by
    decide +kernel
  obtain ⟨octet, _, inside⟩ := List.mem_flatMap.mp member
  have some := all octet.toNat octet.toNat_lt
  rw [UInt8.ofNat_toNat] at some
  simpa using List.all_eq_true.mp some c inside

theorem encode_free {t : Text} {separator : Char} (other : isOpen separator.toNat = false)
    (mark : separator ≠ '%') : ∀ c ∈ encode t, c ≠ separator := by
  rintro c member rfl
  rcases encode_chars member with plain | percent
  · rw [other] at plain
    cases plain
  · exact mark percent

theorem encode_cons (c : Char) (t : Text) : encode (c :: t) = encode [c] ++ encode t := by
  simp [encode, Text.octets]

theorem encode_self {t : Text} (all : ∀ c ∈ t, isOpen c.toNat = true) : encode t = t := by
  have single : ∀ n < 128, isOpen n = true → encode [Char.ofNat n] = [Char.ofNat n] := by
    decide +kernel
  induction t with
  | nil => rfl
  | cons c rest ih =>
    have tail := ih fun d member => all d (List.mem_cons_of_mem c member)
    have written := all c (by simp)
    have small : c.toNat < 128 := by
      simp only [isOpen, Bool.or_eq_true, Bool.and_eq_true, decide_eq_true_eq] at written
      omega
    have head := single c.toNat small written
    rw [Char.ofNat_toNat] at head
    rw [encode_cons, head, tail, List.singleton_append]

theorem encode_digits {number : Text} (digits : ∀ c ∈ number, Text.isDigit c = true) :
    encode number = number := by
  apply encode_self
  intro c member
  have digit := digits c member
  simp only [Text.isDigit, Bool.and_eq_true, decide_eq_true_eq] at digit
  obtain ⟨low, high⟩ := digit
  have least : 48 ≤ c.toNat := low
  have most : c.toNat ≤ 57 := high
  simp [isOpen, least, most]

section Pairs

def written (pair : Text × Text) : Text := encode pair.1 ++ '=' :: encode pair.2

theorem pair?_written (pair : Text × Text) : pair? (written pair) = some pair := by
  obtain ⟨name, value⟩ := pair
  have named : (written (name, value)).takeWhile (· != '=') = encode name := by
    have free : ∀ c ∈ encode name, c ≠ '=' := encode_free (by decide) (by decide)
    rw [written, List.takeWhile_append_of_pos (by simpa using free)]
    simp
  have behind : (written (name, value)).drop ((encode name).length + 1) = encode value := by
    rw [written, ← List.drop_drop, List.drop_left]
    rfl
  rw [pair?]
  simp only [named, behind, decode?_encode]

theorem written_free (pair : Text × Text) : ∀ c ∈ written pair, decide (c = '&') = false := by
  intro c member
  have free : ∀ {t : Text}, ∀ c ∈ encode t, c ≠ '&' :=
    encode_free (by decide) (by decide)
  rcases List.mem_append.mp member with name | value
  · exact decide_eq_false (free c name)
  · rcases List.mem_cons.mp value with rfl | value
    · decide
    · exact decide_eq_false (free c value)

theorem mapM_pair?_written (pairs : List (Text × Text)) :
    (pairs.map written).mapM pair? = some pairs := by
  induction pairs with
  | nil => rfl
  | cons pair rest ih => simp [pair?_written, ih]

theorem parameters?_joined {pairs : List (Text × Text)} (filled : pairs ≠ []) :
    parameters? ('?' :: Text.joined ['&'] (pairs.map written)) = some pairs := by
  have split : Text.splitOn (· = '&') (Text.joined ['&'] (pairs.map written)) =
      pairs.map written := by
    apply Text.splitOn_joined (by decide) (by simpa using filled)
    intro t listed
    obtain ⟨pair, _, rfl⟩ := List.mem_map.mp listed
    exact written_free pair
  rw [parameters?, split, mapM_pair?_written]

def pairs (link : Link) : List (Text × Text) :=
  ("q".toList, link.query) ::
    (link.types.map ("index".toList, ·) ++ (link.sortSpec.map ("sort".toList, ·)).toList)

theorem queryString_eq (link : Link) :
    link.queryString = '?' :: Text.joined ['&'] (link.pairs.map written) := by
  have first : "?q=".toList ++ encode link.query = '?' :: written ("q".toList, link.query) := by
    rw [written, encode_self (t := "q".toList) (Text.forall_of_all (by decide))]
    rfl
  have index (type : Text) :
      "&index=".toList ++ encode type = ['&'] ++ written ("index".toList, type) := by
    rw [written, encode_self (t := "index".toList) (Text.forall_of_all (by decide))]
    rfl
  have sort (spec : Text) :
      "&sort=".toList ++ encode spec = ['&'] ++ written ("sort".toList, spec) := by
    rw [written, encode_self (t := "sort".toList) (Text.forall_of_all (by decide))]
    rfl
  simp only [queryString, index, sort]
  rw [pairs, List.map_cons, Text.joined_cons, List.map_append, List.flatMap_append, first,
    List.flatMap_map, List.flatMap_map]
  cases link.sortSpec <;> simp

theorem pageStem_eq (link : Link) {number : Text} (digits : ∀ c ∈ number, Text.isDigit c = true) :
    link.pageStem ++ number =
      '?' :: Text.joined ['&'] ((link.pairs ++ [("page".toList, number)]).map written) := by
  have last : "&page=".toList ++ number = ['&'] ++ written ("page".toList, number) := by
    rw [written, encode_self (t := "page".toList) (Text.forall_of_all (by decide)),
      encode_digits digits]
    rfl
  rw [pageStem, queryString_eq, List.append_assoc, last, List.map_append,
    Text.joined_append (by simp [pairs]) (by simp)]
  simp [Text.joined]

theorem parameters?_page (link : Link) {number : Text}
    (digits : ∀ c ∈ number, Text.isDigit c = true) :
    parameters? (link.pageStem ++ number) = some (link.pairs ++ [("page".toList, number)]) := by
  rw [pageStem_eq link digits, parameters?_joined (by simp)]

theorem parameters?_pageStem (link : Link) (n : Nat) :
    parameters? (link.pageStem ++ Text.natural n) =
      some (link.pairs ++ [("page".toList, Text.natural n)]) :=
  link.parameters?_page fun _ => Text.isDigit_of_mem_natural

theorem parameters?_queryString (link : Link) : parameters? link.queryString = some link.pairs := by
  rw [queryString_eq, parameters?_joined (by simp [pairs])]

end Pairs

end Link

end CardCatalog
