import CardCatalog.Json
import CardCatalog.Proofs.Link

/-!
What is written on one line reads back as the value that was written. The values
are those whose numbers are integers; any text may stand in a string or as the
name of a member. Nothing that is written has a line end in it.
-/

namespace CardCatalog

theorem Text.head_natural {n : Nat} (positive : n ≠ 0) : (natural n).head? ≠ some '0' := by
  unfold natural
  induction n using Nat.strongRecOn with
  | ind n ih =>
    by_cases small : n < 10
    · rw [Nat.toDigits_of_lt_base small]
      have digit : ∀ d < 10, d ≠ 0 → some (Nat.digitChar d) ≠ some '0' := by decide
      exact digit n small positive
    · have front := ih (n / 10) (by omega) (by omega)
      obtain ⟨c, tail, digits⟩ := List.exists_cons_of_ne_nil (@Nat.toDigits_ne_nil (n / 10) 10)
      rw [Nat.toDigits_of_base_le (by decide) (by omega), digits]
      rwa [digits] at front

theorem Text.natural_cons (n : Nat) : ∃ c rest, natural n = c :: rest ∧ isDigit c = true := by
  obtain ⟨c, rest, digits⟩ := List.exists_cons_of_ne_nil (@Nat.toDigits_ne_nil n 10)
  have same : natural n = c :: rest := digits
  exact ⟨c, rest, same, isDigit_of_mem_natural (same ▸ List.mem_cons_self)⟩

namespace Json

inductive Plain : Json → Prop where
  | null : Plain .null
  | bool (b : Bool) : Plain (.bool b)
  | int (n : Int) : Plain (.int n)
  | string (t : Text) : Plain (.string t)
  | array {items : List Json} (each : ∀ item ∈ items, Plain item) : Plain (.array items)
  | object {members : List (Text × Json)} (each : ∀ member ∈ members, Plain member.2) :
      Plain (.object members)

theorem hexValue?_hexDigit : ∀ d < 16, hexValue? (hexDigit d) = some d := by decide

theorem units_escape (c : Char) (rest : Text) : units (escape c ++ rest) =
    (units rest).map fun found => (.char c :: found.1, found.2) := by
  unfold escape
  split
  case h_8 =>
    split
    · rename_i low
      have high := hexValue?_hexDigit (c.toNat / 16) (by omega)
      have rem := hexValue?_hexDigit (c.toNat % 16) (by omega)
      have zero : hexValue? '0' = some 0 := by decide
      have whole : hex? ['0', '0', hexDigit (c.toNat / 16), hexDigit (c.toNat % 16)] =
          some c.toNat := by
        simp [hex?, high, rem, zero, Nat.div_add_mod]
      have apart : ¬ (0xD800 ≤ c.toNat ∧ c.toNat ≤ 0xDFFF) := by omega
      simp only [List.cons_append, List.nil_append, units, whole, if_neg apart, Char.ofNat_toNat]
    · rename_i quote back _ _ _ _ _ high
      rw [List.singleton_append, units, if_neg high]
      · exact quote
      · intro a b c' d rest' same
        exact absurd same back
      · exact fun _ _ same _ => absurd same back
  all_goals rfl

theorem units_quoted (t rest : Text) :
    units (t.flatMap escape ++ '"' :: rest) = some (t.map .char, rest) := by
  induction t with
  | nil => rfl
  | cons c more ih => rw [List.flatMap_cons, List.append_assoc, units_escape, ih]; rfl

theorem pair?_chars (t : Text) : pair? (t.map .char) = some t := by
  induction t with
  | nil => rfl
  | cons c rest ih => rw [List.map_cons, pair?, ih]; rfl

def Closes (rest : Text) : Prop := ∀ c ∈ rest.head?, c = ',' ∨ c = ']' ∨ c = '\x7d'

theorem digits_append {whole rest : Text} (all : ∀ c ∈ whole, Text.isDigit c = true)
    (closes : Closes rest) : digits (whole ++ rest) = whole := by
  have behind : rest.takeWhile Text.isDigit = [] := by
    cases rest with
    | nil => rfl
    | cons c tail =>
      rcases closes c rfl with rfl | rfl | rfl <;> rfl
  rw [digits, List.takeWhile_append_of_pos all, behind, List.append_nil]

theorem numeral?_natural (k : Nat) {rest : Text} (closes : Closes rest) :
    numeral? (Text.natural k ++ rest) = some (Text.natural k, rest) ∧
      numeral? ('-' :: (Text.natural k ++ rest)) = some ('-' :: Text.natural k, rest) := by
  have whole : digits (Text.natural k ++ rest) = Text.natural k :=
    digits_append (fun c => Text.isDigit_of_mem_natural) closes
  have filled : Text.natural k ≠ [] := Nat.toDigits_ne_nil
  have leads : ((Text.natural k).head? == some '0' &&
      decide ((Text.natural k).length > 1)) = false := by
    by_cases zero : k = 0
    · subst zero
      rfl
    · simp [Text.head_natural zero]
  have unsigned : ∀ tail, Text.natural k ++ rest ≠ '-' :: tail := by
    intro tail signed
    obtain ⟨c, more, same, digit⟩ := Text.natural_cons k
    rw [same] at signed
    cases (List.cons.inj signed).1
    exact absurd digit (by decide)
  have closed : rest = [] ∨ ∃ c tail, rest = c :: tail ∧ (c = ',' ∨ c = ']' ∨ c = '\x7d') := by
    cases rest with
    | nil => exact .inl rfl
    | cons c tail => exact .inr ⟨c, tail, rfl, closes c rfl⟩
  have cut : (Text.natural k ++ rest).drop (Text.natural k).length = rest := List.drop_left
  generalize Text.natural k ++ rest = t at whole unsigned cut ⊢
  unfold numeral?
  constructor
  · rcases closed with rfl | ⟨c, tail, rfl, rfl | rfl | rfl⟩ <;>
      simp [whole, cut, filled, leads]
  · rcases closed with rfl | ⟨c, tail, rfl, rfl | rfl | rfl⟩ <;>
      simp [whole, cut, filled, leads]

theorem numeral?_int (n : Int) {rest : Text} (closes : Closes rest) :
    numeral? (Text.integer n ++ rest) = some (Text.integer n, rest) := by
  unfold Text.integer
  split
  · exact (numeral?_natural n.natAbs closes).2
  · exact (numeral?_natural n.natAbs closes).1

theorem int?_int (n : Int) : (int n).int? = some n := by
  have all (k : Nat) : (Text.natural k).all Text.isDigit = true :=
    List.all_eq_true.mpr fun c => Text.isDigit_of_mem_natural
  unfold int Text.integer
  split
  · have other : Text.natural n.natAbs ≠ ['0'] := fun zero =>
      Text.head_natural (by omega) (congrArg List.head? zero)
    have value : -(n.natAbs : Int) = n := by omega
    have digits : ((Text.natural n.natAbs).all Text.isDigit &&
        Text.natural n.natAbs != ['0']) = true := by
      rw [all, Bool.true_and, bne_iff_ne]
      exact other
    rw [int?, if_pos digits, Text.number_natural, value]
  · have value : (n.natAbs : Int) = n := by omega
    have digits := all n.natAbs
    obtain ⟨c, rest, same, digit⟩ := Text.natural_cons n.natAbs
    unfold int?
    split
    · rename_i signed
      rw [same] at signed
      cases signed
      exact absurd digit (by decide)
    · rename_i numeral
      cases numeral
      rw [if_pos digits, Text.number_natural, value]
    · rename_i none
      exact absurd rfl (none _)

theorem skip_cons {c : Char} (solid : isSpace c = false) (rest : Text) :
    skip (c :: rest) = c :: rest := by
  simp [skip, solid]

/-- Where a value starts, no blank is skipped and no container ends. -/
def Starts (t : Text) : Prop := ∃ c rest, t = c :: rest ∧ isSpace c = false ∧ c ≠ ']' ∧ c ≠ '\x7d'

theorem Starts.append {t : Text} (starts : Starts t) (rest : Text) : Starts (t ++ rest) := by
  obtain ⟨c, tail, rfl, solid⟩ := starts
  exact ⟨c, tail ++ rest, rfl, solid⟩

theorem skip_starts {t : Text} (starts : Starts t) : skip t = t := by
  obtain ⟨c, tail, rfl, solid, _⟩ := starts
  exact skip_cons solid tail

theorem head_integer (n : Int) : ∃ c rest, Text.integer n = c :: rest ∧
    ∀ d, d ≠ '-' → Text.isDigit d = false → c ≠ d := by
  unfold Text.integer
  split
  · exact ⟨'-', _, rfl, fun d sign _ => sign.symm⟩
  · obtain ⟨c, rest, same, digit⟩ := Text.natural_cons n.natAbs
    refine ⟨c, rest, same, ?_⟩
    rintro d _ none rfl
    rw [digit] at none
    cases none

theorem starts_integer (n : Int) : Starts (Text.integer n) := by
  obtain ⟨c, rest, same, other⟩ := head_integer n
  refine ⟨c, rest, same, ?_, other ']' (by decide) rfl, other '\x7d' (by decide) rfl⟩
  simp [isSpace, other ' ' (by decide) rfl, other '\t' (by decide) rfl,
    other '\n' (by decide) rfl, other '\r' (by decide) rfl]

theorem starts_compact {j : Json} (plain : j.Plain) : Starts j.compact := by
  cases plain with
  | null => exact ⟨'n', _, rfl, by decide⟩
  | bool b =>
    cases b with
    | false => exact ⟨'f', _, rfl, by decide⟩
    | true => exact ⟨'t', _, rfl, by decide⟩
  | int n => exact starts_integer n
  | string t => exact ⟨'"', _, rfl, by decide⟩
  | array each => exact ⟨'[', _, rfl, by decide⟩
  | object each => exact ⟨'\x7b', _, rfl, by decide⟩

theorem starts_items {items : List Json} (each : ∀ item ∈ items, Plain item)
    (filled : items ≠ []) : Starts (compactItems items) := by
  obtain ⟨item, rest, rfl⟩ := List.exists_cons_of_ne_nil filled
  have first := starts_compact (each item (by simp))
  cases rest with
  | nil => exact first
  | cons next more => exact first.append _

theorem starts_members {members : List (Text × Json)} (filled : members ≠ []) :
    Starts (compactMembers members) := by
  obtain ⟨member, rest, rfl⟩ := List.exists_cons_of_ne_nil filled
  cases rest with
  | nil => exact ⟨'"', _, rfl, by decide⟩
  | cons next more => exact ⟨'"', _, rfl, by decide⟩

/-- A value is read back and what stands behind it is left. -/
def Reads (j : Json) : Prop := ∀ (fuel : Nat) (rest : Text),
  2 * j.compact.length ≤ fuel → Closes rest → value? fuel (j.compact ++ rest) = some (j, rest)

theorem literal?_eq_none {c : Char} (other : c ≠ 'n' ∧ c ≠ 't' ∧ c ≠ 'f') (rest : Text) :
    literal? (c :: rest) = none := by
  simp [literal?, literals, Text.startsWith, other.1.symm, other.2.1.symm, other.2.2.symm]

theorem fuel_of_starts {t : Text} (starts : Starts t) {fuel : Nat} (enough : 2 * t.length ≤ fuel) :
    ∃ less, fuel = less + 1 ∧ 2 * t.length ≤ less + 1 := by
  obtain ⟨c, rest, rfl, _⟩ := starts
  rw [List.length_cons] at enough ⊢
  exact ⟨fuel - 1, by omega, by omega⟩

theorem reads_int (n : Int) : Reads (int n) := by
  intro fuel rest enough closes
  obtain ⟨fuel, rfl, _⟩ := fuel_of_starts (starts_compact (.int n)) enough
  have number := numeral?_int n closes
  have skipped := skip_starts ((starts_integer n).append rest)
  obtain ⟨c, tail, same, other⟩ := head_integer n
  have literal : literal? (c :: (tail ++ rest)) = none :=
    literal?_eq_none ⟨other 'n' (by decide) rfl, other 't' (by decide) rfl,
      other 'f' (by decide) rfl⟩ _
  rw [show (int n).compact = Text.integer n from rfl, value?, skipped]
  rw [same, List.cons_append] at number ⊢
  split
  · rename_i text
    exact absurd (List.cons.inj text).1 (other '"' (by decide) rfl)
  · rename_i list
    exact absurd (List.cons.inj list).1 (other '[' (by decide) rfl)
  · rename_i record
    exact absurd (List.cons.inj record).1 (other '\x7b' (by decide) rfl)
  · rw [literal, number, ← same]
    rfl

theorem closes_cons {c : Char} (closing : c = ',' ∨ c = ']' ∨ c = '\x7d') (rest : Text) :
    Closes (c :: rest) := by
  simpa [Closes] using closing

theorem items?_compact {items : List Json} (each : ∀ item ∈ items, Reads item)
    (filled : items ≠ []) (fuel : Nat) (rest : Text)
    (enough : 2 * (compactItems items).length + 1 ≤ fuel) :
    items? fuel (compactItems items ++ ']' :: rest) = some (items, rest) := by
  induction items generalizing fuel with
  | nil => exact absurd rfl filled
  | cons item more ih =>
    obtain ⟨fuel, rfl⟩ : ∃ less, fuel = less + 1 := ⟨fuel - 1, by omega⟩
    have first := each item (by simp)
    cases more with
    | nil =>
      simp only [compactItems] at enough ⊢
      have read := first fuel (']' :: rest) (by omega) (closes_cons (by simp) rest)
      rw [items?, read]
      rfl
    | cons next more =>
      simp only [compactItems, List.length_append, List.length_cons, List.append_assoc,
        List.cons_append] at enough ⊢
      have read := first fuel (',' :: (compactItems (next :: more) ++ ']' :: rest)) (by omega)
        (closes_cons (by simp) _)
      have tail := ih (fun other member => each other (List.mem_cons_of_mem item member)) (by simp)
        fuel (by omega)
      rw [items?, read]
      simp only [@skip_cons ',' rfl, tail, Option.map_some]

theorem members?_compact {members : List (Text × Json)} (each : ∀ member ∈ members, Reads member.2)
    (filled : members ≠ []) (fuel : Nat) (rest : Text)
    (enough : 2 * (compactMembers members).length + 1 ≤ fuel) :
    members? fuel (compactMembers members ++ '\x7d' :: rest) =
      some (members.map fun m => (m.1.map .char, m.2), rest) := by
  induction members generalizing fuel with
  | nil => exact absurd rfl filled
  | cons member more ih =>
    obtain ⟨fuel, rfl⟩ : ∃ less, fuel = less + 1 := ⟨fuel - 1, by omega⟩
    obtain ⟨name, value⟩ := member
    have first := each (name, value) (by simp)
    cases more with
    | nil =>
      simp only [compactMembers, quoted, List.length_append, List.length_cons, List.append_assoc,
        List.cons_append, List.nil_append] at enough ⊢
      have read := first fuel ('\x7d' :: rest) (by simp only at *; omega)
        (closes_cons (by simp) rest)
      rw [members?, skip_cons rfl]
      simp only [units_quoted, @skip_cons ':' rfl, read, @skip_cons '\x7d' rfl]
      rfl
    | cons next more =>
      simp only [compactMembers, quoted, List.length_append, List.length_cons, List.append_assoc,
        List.cons_append, List.nil_append] at enough ⊢
      have read := first fuel (',' :: (compactMembers (next :: more) ++ '\x7d' :: rest))
        (by simp only at *; omega) (closes_cons (by simp) _)
      have tail := ih (fun other member => each other (List.mem_cons_of_mem _ member)) (by simp)
        fuel (by omega)
      rw [members?, skip_cons rfl]
      simp only [units_quoted, @skip_cons ':' rfl, read, @skip_cons ',' rfl, tail,
        Option.map_some]
      rfl

theorem member?_chars (members : List (Text × Json)) :
    (members.map fun m => (m.1.map Unit.char, m.2)).mapM (fun m => member? m.1 m.2) =
      some members := by
  induction members with
  | nil => rfl
  | cons member rest ih =>
    rw [List.map_cons, List.mapM_cons, ih, member?, pair?_chars]
    rfl

theorem reads_array {items : List Json} (each : ∀ item ∈ items, Plain item)
    (reads : ∀ item ∈ items, Reads item) : Reads (array items) := by
  intro fuel rest enough _
  simp only [compact, List.length_append, List.length_cons, List.append_assoc, List.cons_append,
    List.nil_append] at enough ⊢
  obtain ⟨fuel, rfl⟩ : ∃ less, fuel = less + 1 := ⟨fuel - 1, by omega⟩
  rw [value?, skip_cons rfl]
  by_cases filled : items = []
  · subst filled
    rfl
  · have starts := (starts_items each filled).append (']' :: rest)
    have read := items?_compact reads filled fuel rest (by omega)
    simp only [skip_starts starts]
    split
    · rename_i ends
      obtain ⟨c, tail, same, _, other, _⟩ := starts
      rw [same] at ends
      exact absurd (List.cons.inj ends).1 other
    · rw [read]
      rfl

theorem reads_object {members : List (Text × Json)} (reads : ∀ member ∈ members, Reads member.2) :
    Reads (object members) := by
  intro fuel rest enough _
  simp only [compact, List.length_append, List.length_cons, List.append_assoc, List.cons_append,
    List.nil_append] at enough ⊢
  obtain ⟨fuel, rfl⟩ : ∃ less, fuel = less + 1 := ⟨fuel - 1, by omega⟩
  rw [value?, skip_cons rfl]
  by_cases filled : members = []
  · subst filled
    rfl
  · have starts := (starts_members filled).append ('\x7d' :: rest)
    have read := members?_compact reads filled fuel rest (by omega)
    simp only [skip_starts starts]
    split
    · rename_i ends
      obtain ⟨c, tail, same, _, _, other⟩ := starts
      rw [same] at ends
      exact absurd (List.cons.inj ends).1 other
    · rw [read]
      simp only [Option.map_some, member?_chars, Option.getD_some]

theorem reads_string (t : Text) : Reads (string t) := by
  intro fuel rest enough _
  obtain ⟨fuel, rfl, _⟩ := fuel_of_starts (starts_compact (.string t)) enough
  have shape : (string t).compact ++ rest = '"' :: (t.flatMap escape ++ '"' :: rest) := by
    simp [compact, scalar, quoted]
  rw [shape, value?, skip_cons rfl]
  simp only [units_quoted, pair?_chars, Option.map_some, Option.getD_some]

theorem reads_plain {j : Json} (plain : j.Plain) : Reads j := by
  induction plain with
  | null =>
    intro fuel rest enough _
    obtain ⟨fuel, rfl, _⟩ := fuel_of_starts (starts_compact .null) enough
    rfl
  | bool b =>
    intro fuel rest enough _
    obtain ⟨fuel, rfl, _⟩ := fuel_of_starts (starts_compact (.bool b)) enough
    cases b <;> rfl
  | int n => exact reads_int n
  | string t => exact reads_string t
  | array each ih => exact reads_array each ih
  | object _ ih => exact reads_object ih

/-- What is written is read back. -/
theorem read?_compact {j : Json} (plain : j.Plain) : read? j.compact = some j := by
  have read := reads_plain plain (2 * j.compact.length + 2) [] (by omega) (by simp [Closes])
  rw [List.append_nil] at read
  rw [read?, read]
  rfl

theorem solid_quoted (t : Text) : '\n' ∉ quoted t := by
  have each (c : Char) : '\n' ∉ escape c := by
    unfold escape
    split
    case h_8 =>
      rename_i other _ _
      split
      · rename_i low
        have digit : ∀ d < 16, '\n' ≠ hexDigit d := by decide
        simp [digit (c.toNat / 16) (by omega), digit (c.toNat % 16) (by omega)]
      · simpa using Ne.symm other
    all_goals decide
  intro inside
  simp only [quoted, List.cons_append, List.mem_cons, List.mem_append, List.mem_flatMap,
    List.not_mem_nil, or_false] at inside
  rcases inside with quote | ⟨c, _, line⟩ | quote
  · exact absurd quote (by decide)
  · exact each c line
  · exact absurd quote (by decide)

theorem solid_integer (n : Int) : '\n' ∉ Text.integer n := by
  have digits (k : Nat) : '\n' ∉ Text.natural k := fun inside =>
    absurd (Text.isDigit_of_mem_natural inside) (by decide)
  unfold Text.integer
  split
  · exact fun inside => (List.mem_cons.mp inside).elim (by decide) (digits _)
  · exact digits _

theorem solid_items {items : List Json} (each : ∀ item ∈ items, '\n' ∉ item.compact) :
    '\n' ∉ compactItems items := by
  induction items with
  | nil => exact List.not_mem_nil
  | cons item rest ih =>
    have first := each item (by simp)
    have tail := ih fun other member => each other (List.mem_cons_of_mem item member)
    cases rest with
    | nil => exact first
    | cons next more => simp [compactItems, first, tail]

theorem solid_members {members : List (Text × Json)}
    (each : ∀ member ∈ members, '\n' ∉ member.2.compact) : '\n' ∉ compactMembers members := by
  induction members with
  | nil => exact List.not_mem_nil
  | cons member rest ih =>
    obtain ⟨name, value⟩ := member
    have first := each (name, value) (by simp)
    have tail := ih fun other inside => each other (List.mem_cons_of_mem _ inside)
    cases rest with
    | nil => simp [compactMembers, solid_quoted, first]
    | cons next more => simp [compactMembers, solid_quoted, first, tail]

theorem solid_compact {j : Json} (plain : j.Plain) : '\n' ∉ j.compact := by
  induction plain with
  | null => decide
  | bool b => cases b <;> decide
  | int n => exact solid_integer n
  | string t => exact solid_quoted t
  | array _ ih => simp [compact, solid_items ih]
  | object _ ih => simp [compact, solid_members ih]

end Json

end CardCatalog
