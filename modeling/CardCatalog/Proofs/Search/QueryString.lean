import CardCatalog.Proofs.Search.Following

/-!
Query strings. What is said between their separators is what the link says and nothing else,
and it is written with few characters. Main statement: a query string is read back as the
pairs of its link, a number behind the page stem is one pair more, and two links with one
query string say the same.
-/

namespace CardCatalog.Link

/-- Letters and digits of ASCII and the four signs that are written as they are. -/
def Plain (c : Char) : Prop :=
  ('a' ≤ c ∧ c ≤ 'z') ∨ ('A' ≤ c ∧ c ≤ 'Z') ∨ ('0' ≤ c ∧ c ≤ '9') ∨ c ∈ ['-', '_', '.', '~']

instance : DecidablePred Plain := fun _ => inferInstanceAs (Decidable (_ ∨ _ ∨ _ ∨ _))

theorem Plain.ascii {c : Char} (plain : Plain c) : c.toNat < 128 := by
  rcases plain with ⟨_, letter⟩ | ⟨_, letter⟩ | ⟨_, digit⟩ | sign
  · exact Nat.lt_of_le_of_lt (Char.le_def.mp letter) (by decide)
  · exact Nat.lt_of_le_of_lt (Char.le_def.mp letter) (by decide)
  · exact Nat.lt_of_le_of_lt (Char.le_def.mp digit) (by decide)
  · have signs : ∀ c ∈ ['-', '_', '.', '~'], c.toNat < 128 := Text.forall_of_all (by decide)
    exact signs c sign

def hexDigits : Text := "0123456789ABCDEF".toList

/-- What an address can hold: plain characters, octets in two digits, and separators. -/
inductive Addressable : Text → Prop
  | nil : Addressable []
  | plain {c : Char} {rest : Text} (alike : Plain c) (more : Addressable rest) :
      Addressable (c :: rest)
  | escape {high low : Char} {rest : Text} (first : high ∈ hexDigits) (second : low ∈ hexDigits)
      (more : Addressable rest) : Addressable ('%' :: high :: low :: rest)
  | separator {c : Char} {rest : Text} (separates : c ∈ ['?', '&', '=']) (more : Addressable rest) :
      Addressable (c :: rest)

namespace Addressable

theorem append {t rest : Text} (first : Addressable t) (second : Addressable rest) :
    Addressable (t ++ rest) := by
  induction first with
  | nil => exact second
  | plain alike _ ih => exact .plain alike ih
  | escape high low _ ih => exact .escape high low ih
  | separator separates _ ih => exact .separator separates ih

theorem ascii {t : Text} (clear : Addressable t) : ∀ c ∈ t, c.toNat < 128 := by
  have hexSmall : ∀ c ∈ hexDigits, c.toNat < 128 := Text.forall_of_all (by decide)
  have separatorSmall : ∀ c ∈ ['?', '&', '='], c.toNat < 128 := Text.forall_of_all (by decide)
  induction clear with
  | nil => simp
  | plain alike _ ih => exact List.forall_mem_cons.mpr ⟨alike.ascii, ih⟩
  | escape high low _ ih =>
    simp only [List.forall_mem_cons]
    exact ⟨by decide, hexSmall _ high, hexSmall _ low, ih⟩
  | separator separates _ ih => exact List.forall_mem_cons.mpr ⟨separatorSmall _ separates, ih⟩

theorem octet (octet : UInt8) {rest : Text} (more : Addressable rest) :
    Addressable (encodeOctet octet ++ rest) := by
  have plain : ∀ n < 256, isOpen n = true → Plain (Char.ofNat n) := by decide +kernel
  have hex : ∀ n < 16, hexDigit n ∈ hexDigits := by decide
  have bound : octet.toNat < 256 := octet.toNat_lt
  by_cases written : isOpen octet.toNat = true
  · simp only [encodeOctet, if_pos written]
    exact .plain (plain _ bound written) more
  · simp only [encodeOctet, if_neg written]
    exact .escape (hex _ (by omega)) (hex _ (by omega)) more

theorem encoded (t : Text) : Addressable (encode t) := by
  rw [encode]
  induction Text.octets t with
  | nil => exact .nil
  | cons first rest ih => exact octet first ih

theorem pair (pair : Text × Text) : Addressable (written pair) :=
  (encoded pair.1).append (.separator (by simp) (encoded pair.2))

theorem pairs (pairs : List (Text × Text)) :
    Addressable (Text.joined ['&'] (pairs.map written)) := by
  cases pairs with
  | nil => exact .nil
  | cons first rest =>
    rw [List.map_cons, Text.joined_cons]
    apply (pair first).append
    induction rest with
    | nil => exact .nil
    | cons next rest ih => exact .separator (by simp) ((pair next).append ih)

end Addressable

theorem queryString_inj {link other : Link} :
    link.queryString = other.queryString ↔
      link.query = other.query ∧ link.types = other.types ∧ link.sortSpec = other.sortSpec := by
  constructor
  · intro same
    have told : link.pairs = other.pairs := by
      have read := link.parameters?_queryString
      rw [same, other.parameters?_queryString] at read
      exact (Option.some.inj read).symm
    have under (name : String) := congrArg (SearchParams.values name) told
    simp only [SearchParams.values_pairs] at under
    have query : link.query = other.query := by simpa using under "q"
    have types : link.types = other.types := by simpa using under "index"
    have sort : link.sortSpec.toList = other.sortSpec.toList := by simpa using under "sort"
    exact ⟨query, types, by simpa using congrArg List.head? sort⟩
  · rintro ⟨query, types, sort⟩
    rw [queryString, queryString, query, types, sort]

/-- A query string is read back as what its link says, with a page number behind it as one pair
more; it is written in ASCII, and two links have the same one only if they say the same. -/
theorem query_string_exact (link : Link) :
    parameters? link.queryString = some link.pairs ∧
      (∀ number : Text, (∀ c ∈ number, Text.isDigit c = true) →
        parameters? (link.pageStem ++ number) = some (link.pairs ++ [("page".toList, number)]) ∧
        Addressable (link.pageStem ++ number)) ∧
      Addressable link.queryString ∧ (∀ c ∈ link.queryString, c.toNat < 128) ∧
      ∀ other : Link, link.queryString = other.queryString ↔
        link.query = other.query ∧ link.types = other.types ∧ link.sortSpec = other.sortSpec := by
  have whole : Addressable link.queryString := by
    rw [queryString_eq]
    exact .separator (by simp) (.pairs link.pairs)
  refine ⟨link.parameters?_queryString, ?_, whole, whole.ascii, fun other => queryString_inj⟩
  intro number digits
  refine ⟨link.parameters?_page digits, ?_⟩
  rw [pageStem_eq link digits]
  exact .separator (by simp) (.pairs _)

-- Every separator stands in the query itself, and the sort is empty.
def awkward : Link := ⟨"jan&é=%?".toList, ["a b".toList], some []⟩

theorem query_string_exact_awkward :
    (∀ c ∈ "007".toList, Text.isDigit c = true) ∧
      awkward.queryString = "?q=jan%26%C3%A9%3D%25%3F&index=a%20b".toList ∧
      parameters? (awkward.pageStem ++ "007".toList) =
        some [("q".toList, "jan&é=%?".toList), ("index".toList, "a b".toList),
          ("page".toList, "007".toList)] := by
  have digits : ∀ c ∈ "007".toList, Text.isDigit c = true := Text.forall_of_all (by decide)
  exact ⟨digits, by decide +kernel, ((query_string_exact awkward).2.1 _ digits).1⟩

end CardCatalog.Link
