import CardCatalog.Proofs.Query.Reading
import CardCatalog.Proofs.Text.Stripped

/-!
Where the scopes of a text are, said without a scan. A scope begins at a place
when a known name and a colon stand there behind a blank, and no quotation that
closes is open. The scan finds these places and no others, in their order, and
what it hands back is what stands between them.
-/

namespace CardCatalog

namespace Scope

/-- No quotation that closes is open between the two texts. -/
def Outside (before after : Text) : Prop :=
  before.countP Text.isQuote % 2 = 0 ∨ Unquoted after

/-- The quotation behind a colon if there is one that closes, else the run up to
the next blank or quote. -/
inductive Valued : Text → Text → Prop where
  | quoted {inside : Text} (rest : Text) (free : Unquoted inside) :
      Valued ('"' :: inside ++ '"' :: rest) ('"' :: inside ++ ['"'])
  | run {t : Text} (unclosed : ∀ inside rest, t ≠ '"' :: inside ++ '"' :: rest) :
      Valued t (t.takeWhile fun c => !Text.isBlank c && !Text.isQuote c)

structure Begins (known : List Text) (before after name raw : Text) : Prop where
  opens : ∀ c, before.getLast? = some c → Text.isBlank c = true
  named : name ∈ everyField :: known
  colon : name ++ [':'] <+: after
  longest : ∀ n ∈ everyField :: known, n ++ [':'] <+: after → n.length ≤ name.length
  outside : Outside before after
  valued : Valued (after.drop (name.length + 1)) raw

structure Marker where
  place : Nat
  name : Text
  raw : Text
  deriving DecidableEq

def Marks (known : List Text) (t : Text) (m : Marker) : Prop :=
  Begins known (t.take m.place) (t.drop m.place) m.name m.raw

namespace Marker

def stop (m : Marker) : Nat := m.place + (m.name.length + 1 + m.raw.length)

def value (m : Marker) : Text := Text.trim (m.raw.filter (!Text.isQuote ·))

def scope? (m : Marker) : Option FieldScope :=
  if m.name = everyField ∨ m.value = [] then none else some ⟨m.name, m.value⟩

/-- What goes back into the text: the value for all fields, with its quotes. -/
def kept (m : Marker) : List Text :=
  if m.name = everyField ∧ m.value ≠ [] then [m.raw] else []

end Marker

/-- The text with the markers cut out, from a place on. -/
def stretches (t : Text) (start : Nat) : List Marker → List Text
  | [] => [t.drop start]
  | m :: rest => (t.take m.place).drop start :: (m.kept ++ stretches t m.stop rest)

def markersOf (place : Nat) : List (Piece Mark) → List Marker
  | [] => []
  | .token (.scope name raw) text :: ps =>
    ⟨place + text.length - (name.length + 1 + raw.length), name, raw⟩ ::
      markersOf (place + text.length) ps
  | .token .quotation text :: ps => markersOf (place + text.length) ps
  | .loose _ :: ps => markersOf (place + 1) ps

theorem markersOf_scope (u lead name raw : Text) (ps : List (Piece Mark)) :
    markersOf u.length (.token (.scope name raw) (lead ++ (name ++ ':' :: raw)) :: ps) =
      ⟨u.length + lead.length, name, raw⟩ ::
        markersOf (u ++ (lead ++ (name ++ ':' :: raw))).length ps := by
  have here : u.length + (lead ++ (name ++ ':' :: raw)).length -
      (name.length + 1 + raw.length) = u.length + lead.length := by
    simp
    omega
  rw [markersOf, here, @List.length_append _ u]

theorem markersOf_quotation (u raw : Text) (ps : List (Piece Mark)) :
    markersOf u.length (.token .quotation raw :: ps) = markersOf (u ++ raw).length ps := by
  rw [markersOf, List.length_append]

theorem markersOf_loose (u : Text) (c : Char) (ps : List (Piece Mark)) :
    markersOf u.length (.loose c :: ps) = markersOf (u ++ [c]).length ps := by
  rw [markersOf, List.length_append, List.length_singleton]

def markers (known : List Text) (t : Text) : List Marker :=
  markersOf 0 (Scan.pieces (find known) t)

section Value

variable {t raw : Text}

theorem valued_iff : Valued t raw ↔ rawValue t = raw := by
  have closed {inside rest : Text} (free : Unquoted inside) :
      rawValue ('"' :: inside ++ '"' :: rest) = '"' :: inside ++ ['"'] := by
    rw [rawValue, quotation_closed free, Option.getD_some]
  constructor
  · intro valued
    cases valued with
    | quoted rest free => exact closed free
    | run unclosed =>
      cases found : quotation? t with
      | none => rw [rawValue, found, Option.getD_none]
      | some quoted =>
        obtain ⟨inside, rest, _, same, _⟩ := quotation_eq_some.mp found
        exact absurd same (unclosed inside rest)
  · rintro rfl
    cases found : quotation? t with
    | some quoted =>
      obtain ⟨inside, rest, free, rfl, _⟩ := quotation_eq_some.mp found
      rw [closed free]
      exact .quoted rest free
    | none =>
      rw [rawValue, found, Option.getD_none]
      apply Valued.run
      rintro inside rest rfl
      have present : (inside ++ '"' :: rest).any Text.isQuote = true := by simp [Text.isQuote]
      obtain ⟨first, more, free, same⟩ := first_quote present
      rw [List.cons_append, same, ← List.cons_append, quotation_closed free] at found
      cases found

/-- The quotes of a value stand at its ends, so stripping them is dropping them. -/
theorem inner_rawValue (t : Text) :
    inner (rawValue t) = Text.trim ((rawValue t).filter (!Text.isQuote ·)) := by
  rw [inner]
  rcases rawValue_shape t with ⟨inside, free, same⟩ | solid
  · have ends : ∀ c ∈ ['"'], Text.isQuote c = true := by simp [Text.isQuote]
    have bare := Text.stripped_around ends free ends
    have whole : inside.filter (!Text.isQuote ·) = inside := by
      simpa [List.filter_eq_self, Unquoted] using free
    have kept : ('"' :: inside ++ ['"']).filter (!Text.isQuote ·) = inside := by
      rw [List.filter_append, List.filter_cons, whole]
      simp [Text.isQuote]
    rw [List.singleton_append] at bare
    rw [same, bare, kept]
  · have free : Unquoted (rawValue t) := fun c member => (solid c member).2
    have kept : (rawValue t).filter (!Text.isQuote ·) = rawValue t := by
      simpa [List.filter_eq_self, Unquoted] using free
    rw [kept, Text.stripped_self free]

end Value

section Outside

variable {u w r inside : Text}

theorem countP_unquoted (free : Unquoted w) : w.countP Text.isQuote = 0 := by
  rw [List.countP_eq_zero]
  intro c member
  simp [free c member]

theorem outside_append (clear : Outside u (w ++ r)) (free : Unquoted w) : Outside (u ++ w) r := by
  rcases clear with even | unquoted
  · apply Or.inl
    rw [List.countP_append, countP_unquoted free]
    exact even
  · exact .inr fun c member => unquoted c (List.mem_append_right w member)

theorem even_of_quote (clear : Outside u ('"' :: r)) : u.countP Text.isQuote % 2 = 0 := by
  rcases clear with even | unquoted
  · exact even
  · exact absurd (unquoted '"' (by simp)) (by decide)

theorem outside_quotation (clear : Outside u ('"' :: inside ++ ['"'] ++ r))
    (free : Unquoted inside) : Outside (u ++ ('"' :: inside ++ ['"'])) r := by
  have even := even_of_quote clear
  have two : ('"' :: inside ++ ['"']).countP Text.isQuote = 2 := by
    rw [List.countP_append, List.countP_cons, countP_unquoted free]
    rfl
  apply Or.inl
  rw [List.countP_append, two]
  omega

-- Behind its first character and before its end, a quotation hides what it holds.
theorem hidden (clear : Outside u ('"' :: inside ++ ['"'] ++ r)) (free : Unquoted inside)
    {k : Nat} (begun : 0 < k) (short : k < ('"' :: inside ++ ['"']).length) :
    ¬ Outside (u ++ ('"' :: inside ++ ['"']).take k) (('"' :: inside ++ ['"']).drop k ++ r) := by
  have even := even_of_quote clear
  obtain ⟨i, rfl⟩ : ∃ i, k = i + 1 := ⟨k - 1, by omega⟩
  have within : i ≤ inside.length := by
    simp at short
    omega
  have taken : ('"' :: inside ++ ['"']).take (i + 1) = '"' :: inside.take i := by
    simp [List.take_append_of_le_length within]
  have left : ('"' :: inside ++ ['"']).drop (i + 1) = inside.drop i ++ ['"'] := by
    simp [List.drop_append_of_le_length within]
  have one : ('"' :: inside.take i).countP Text.isQuote = 1 := by
    rw [List.countP_cons, countP_unquoted fun c member => free c (List.mem_of_mem_take member)]
    rfl
  rw [taken, left]
  rintro (odd | unquoted)
  · rw [List.countP_append, one] at odd
    omega
  · exact absurd (unquoted '"' (by simp)) (by decide)

end Outside

/-- Every quote of the text has its partner. -/
def Paired (t : Text) : Prop := t.countP Text.isQuote % 2 = 0

section Paired

variable {w x y z inside : Text}

theorem paired_unquoted (free : Unquoted w) : Paired w := by
  rw [Paired, countP_unquoted free]

theorem paired_append (first : Paired x) : Paired (x ++ y) ↔ Paired y := by
  rw [Paired, Paired, List.countP_append, Nat.add_mod, first, Nat.zero_add, Nat.mod_mod]

theorem paired_quotation (free : Unquoted inside) : Paired ('"' :: inside ++ ['"']) := by
  rw [Paired, List.countP_append, List.countP_cons, countP_unquoted free]
  rfl

theorem paired_rawValue (t : Text) : Paired (rawValue t) := by
  rcases rawValue_shape t with ⟨inside, free, same⟩ | solid
  · rw [same]
    exact paired_quotation free
  · exact paired_unquoted fun c member => (solid c member).2

theorem outside_behind (first : Paired w) (outside : Outside (w ++ x) z) : Outside x z :=
  outside.imp (paired_append first).mp id

theorem outside_passed {c : Char} (unquoted : Text.isQuote c = false ∨ Unquoted x)
    (outside : Outside (c :: x) z) :
    (Text.isQuote c = false ∨ Unquoted (x ++ z)) ∧ Outside x z := by
  cases quote : Text.isQuote c with
  | false =>
    have single : Paired [c] := paired_unquoted (by simpa [Unquoted] using quote)
    exact ⟨.inl rfl, outside_behind single outside⟩
  | true =>
    have free : Unquoted x := unquoted.resolve_left (by simp [quote])
    have tail : Unquoted z := by
      apply outside.resolve_left
      simp [quote, countP_unquoted free]
    exact ⟨.inr fun d member => (List.mem_append.mp member).elim (free d) (tail d), .inr tail⟩

end Paired

section Begin

variable {known : List Text} {u w r name raw : Text}

theorem nameAt_of_begins (names : ∀ n ∈ known, Plain n) (begins : Begins known u r name raw) :
    nameAt known r = some name := by
  apply nameAt_eq_some.mpr
  have plain := plain_of_mem names begins.named
  have fit := fits_iff.mpr ⟨plain.1, begins.colon⟩
  exact ⟨begins.named, fit, fun n among other => begins.longest n among (fits_iff.mp other).2⟩

theorem begins_of_nameAt (names : ∀ n ∈ known, Plain n)
    (opens : ∀ c, u.getLast? = some c → Text.isBlank c = true) (outside : Outside u r)
    (named : nameAt known r = some name) :
    Begins known u r name (rawValue (r.drop (name.length + 1))) := by
  obtain ⟨among, fit, most⟩ := nameAt_eq_some.mp named
  exact {
    opens := opens
    named := among
    colon := (fits_iff.mp fit).2
    longest := by
      intro n listed colon
      exact most n listed (fits_iff.mpr ⟨(plain_of_mem names listed).1, colon⟩)
    outside := outside
    valued := valued_iff.mpr rfl }

theorem begins_head (names : ∀ n ∈ known, Plain n) {c : Char}
    (begins : Begins known u (c :: r) name raw) :
    Text.isBlank c = false ∧ Text.isQuote c = false := by
  obtain ⟨some, solid⟩ := plain_of_mem names begins.named
  cases name with
  | nil => exact absurd rfl some
  | cons d more =>
    have both : d = c ∧ more ++ [':'] <+: r := by simpa using begins.colon
    exact solid c (by simp [both.1])

theorem not_begins_of_solid (some : w ≠ []) (solid : ∀ c ∈ w, Text.isBlank c = false) :
    ¬ Begins known (u ++ w) r name raw := by
  intro begins
  have ends : (u ++ w).getLast? = Option.some (w.getLast some) := by
    simp [List.getLast?_append, List.getLast?_eq_some_getLast some]
  have last := begins.opens (w.getLast some) ends
  rw [solid _ (List.getLast_mem some)] at last
  cases last

end Begin

section Places

variable {known : List Text} {u w r : Text} {m : Marker}

theorem marks_inside {k : Nat} (place : m.place = u.length + k) (inside : k < w.length) :
    Marks known (u ++ (w ++ r)) m ↔
      Begins known (u ++ w.take k) (w.drop k ++ r) m.name m.raw := by
  have within := Nat.le_of_lt inside
  rw [Marks, place, List.take_length_add_append, List.drop_length_add_append,
    List.take_append_of_le_length within, List.drop_append_of_le_length within]

theorem marks_append :
    (u.length ≤ m.place ∧ Marks known (u ++ (w ++ r)) m) ↔
      (∃ k < w.length, m.place = u.length + k ∧
          Begins known (u ++ w.take k) (w.drop k ++ r) m.name m.raw) ∨
        ((u ++ w).length ≤ m.place ∧ Marks known (u ++ w ++ r) m) := by
  rw [List.length_append, List.append_assoc]
  constructor
  · rintro ⟨reached, marks⟩
    obtain ⟨k, place⟩ := Nat.exists_eq_add_of_le reached
    by_cases inside : k < w.length
    · exact .inl ⟨k, inside, place, (marks_inside place inside).mp marks⟩
    · exact .inr ⟨by omega, marks⟩
  · rintro (⟨k, inside, place, begins⟩ | ⟨behind, marks⟩)
    · exact ⟨by omega, (marks_inside place inside).mpr begins⟩
    · exact ⟨by omega, marks⟩

theorem marks_passed
    (nothing : ∀ k < w.length, ∀ name raw,
      ¬ Begins known (u ++ w.take k) (w.drop k ++ r) name raw) :
    (u.length ≤ m.place ∧ Marks known (u ++ (w ++ r)) m) ↔
      ((u ++ w).length ≤ m.place ∧ Marks known (u ++ w ++ r) m) := by
  rw [marks_append]
  constructor
  · rintro (⟨k, inside, _, begins⟩ | behind)
    · exact absurd begins (nothing k inside m.name m.raw)
    · exact behind
  · exact .inr

end Places

/-- A blank that has been passed over had no name behind it. -/
def Settled (known : List Text) (u r : Text) : Prop :=
  ∀ c, u.getLast? = some c → Text.isBlank c = true → nameAt known r = none

section Settled

variable {known : List Text} {u r : Text} {c : Char}

theorem settled_nil : Settled known [] r := by
  intro c last
  cases last

theorem settled_loose (behind : Text.isBlank c = true → nameAt known r = none) :
    Settled known (u ++ [c]) r := by
  intro d last blank
  rw [List.getLast?_concat] at last
  cases last
  exact behind blank

theorem settled_solid (solid : ∀ c, u.getLast? = some c → Text.isBlank c = false) :
    Settled known u r := by
  intro c last blank
  rw [solid c last] at blank
  cases blank

theorem settled_quotation (inside : Text) : Settled known (u ++ ('"' :: inside ++ ['"'])) r := by
  apply settled_solid
  intro c last
  rw [← List.append_assoc, List.getLast?_concat] at last
  cases last
  decide +kernel

end Settled

section Pieces

variable {known : List Text} {u r name raw inside : Text} {m : Marker}

theorem not_begins_of_loose (names : ∀ n ∈ known, Plain n) {c : Char}
    (atStart : u = [] → nameAt known (c :: r) = none)
    (settled : Settled known u (c :: r)) : ¬ Begins known u (c :: r) name raw := by
  intro begins
  have named := nameAt_of_begins names begins
  cases last : u.getLast? with
  | none =>
    rw [atStart (List.getLast?_eq_none_iff.mp last)] at named
    cases named
  | some d =>
    rw [settled d last (begins.opens d last)] at named
    cases named

theorem marks_loose (names : ∀ n ∈ known, Plain n) {c : Char}
    (atStart : u = [] → nameAt known (c :: r) = none) (settled : Settled known u (c :: r)) :
    (u.length ≤ m.place ∧ Marks known (u ++ c :: r) m) ↔
      ((u ++ [c]).length ≤ m.place ∧ Marks known (u ++ [c] ++ r) m) := by
  rw [← List.singleton_append]
  apply marks_passed
  intro k single name raw
  obtain rfl : k = 0 := by simpa using single
  simpa using not_begins_of_loose names atStart settled

theorem not_begins_of_quotation (names : ∀ n ∈ known, Plain n)
    (clear : Outside u ('"' :: inside ++ ['"'] ++ r)) (free : Unquoted inside) {k : Nat}
    (short : k < ('"' :: inside ++ ['"']).length) :
    ¬ Begins known (u ++ ('"' :: inside ++ ['"']).take k)
        (('"' :: inside ++ ['"']).drop k ++ r) name raw := by
  intro begins
  by_cases begun : 0 < k
  · exact hidden clear free begun short begins.outside
  · obtain rfl : k = 0 := by omega
    have head := (begins_head names begins).2
    exact absurd head (by decide)

theorem marks_quotation (names : ∀ n ∈ known, Plain n)
    (clear : Outside u ('"' :: inside ++ ['"'] ++ r)) (free : Unquoted inside) :
    (u.length ≤ m.place ∧ Marks known (u ++ ('"' :: inside ++ ['"'] ++ r)) m) ↔
      ((u ++ ('"' :: inside ++ ['"'])).length ≤ m.place ∧
        Marks known (u ++ ('"' :: inside ++ ['"']) ++ r) m) := by
  apply marks_passed
  intro k short name raw
  exact not_begins_of_quotation names clear free short

theorem head_solid (plain : Plain name) :
    ∀ c ∈ name ++ [':'], Text.isBlank c = false ∧ Text.isQuote c = false := by
  intro c member
  rcases List.mem_append.mp member with ofName | colon
  · exact plain.2 c ofName
  · rw [List.mem_singleton.mp colon]
    decide +kernel

/-- A scope holds no other: its name and a bare value are solid, and a quoted
value is hidden. -/
theorem not_begins_inside {t other : Text} (plain : Plain name) (value : rawValue t = raw)
    (clear : Outside u (name ++ ':' :: raw ++ r)) {k : Nat} (begun : 0 < k)
    (short : k < (name ++ ':' :: raw).length) :
    ¬ Begins known (u ++ (name ++ ':' :: raw).take k)
        ((name ++ ':' :: raw).drop k ++ r) other inside := by
  have head := head_solid plain
  have shape := rawValue_shape t
  have span : name ++ ':' :: raw = (name ++ [':']) ++ raw := by simp
  have filled : (name ++ ':' :: raw).take k ≠ [] := by
    intro none
    rcases List.take_eq_nil_iff.mp none with zero | empty
    · omega
    · simp at empty
  rw [value] at shape
  -- no blank precedes a place in the name or in a bare value, and a quoted value is hidden
  rcases shape with ⟨quoted, free, same⟩ | solid
  · by_cases early : k ≤ (name ++ [':']).length
    · rw [span, List.take_append_of_le_length early] at filled ⊢
      exact not_begins_of_solid filled fun c member => (head c (List.mem_of_mem_take member)).1
    · obtain ⟨i, rfl⟩ := Nat.exists_eq_add_of_lt (Nat.lt_of_not_le early)
      rw [span, Nat.add_assoc, List.take_length_add_append, List.drop_length_add_append,
        ← List.append_assoc]
      rw [span, List.append_assoc] at clear
      have unquoted : Unquoted (name ++ [':']) := fun c member => (head c member).2
      have later := outside_append clear unquoted
      subst same
      rw [span, @List.length_append _ (name ++ [':'])] at short
      intro begins
      exact hidden later free (by omega) (by omega) begins.outside
  · apply not_begins_of_solid filled
    intro c member
    have inside := List.mem_of_mem_take member
    rw [span] at inside
    rcases List.mem_append.mp inside with ofHead | ofRaw
    · exact (head c ofHead).1
    · exact (solid c ofRaw).1

end Pieces

section Scope

variable {known : List Text} {u r lead name raw : Text}

theorem outside_lead (opens : Opens u lead) (clear : Outside u (lead ++ r)) :
    Outside (u ++ lead) r := by
  apply outside_append clear
  cases opens with
  | start => simp [Unquoted]
  | blank isOne => simpa [Unquoted] using not_quote_of_blank isOne

theorem outside_span (plain : Plain name) (value : rawValue (raw ++ r) = raw)
    (clear : Outside u (name ++ ':' :: raw ++ r)) : Outside (u ++ (name ++ ':' :: raw)) r := by
  have head : Unquoted (name ++ [':']) := fun c member => (head_solid plain c member).2
  have split : name ++ ':' :: raw = name ++ [':'] ++ raw := by simp
  have shape := rawValue_shape (raw ++ r)
  rw [value] at shape
  rw [split, List.append_assoc] at clear
  have later := outside_append clear head
  rw [split, ← List.append_assoc]
  rcases shape with ⟨inside, free, rfl⟩ | solid
  · exact outside_quotation later free
  · exact outside_append later fun c member => (solid c member).2

theorem begins_span_iff (names : ∀ n ∈ known, Plain n) (opens : Opens u lead)
    (clear : Outside (u ++ lead) (name ++ ':' :: raw ++ r))
    (named : nameAt known (name ++ ':' :: raw ++ r) = some name)
    (value : rawValue (raw ++ r) = raw) {name' raw' : Text} :
    Begins known (u ++ lead) (name ++ ':' :: raw ++ r) name' raw' ↔ name' = name ∧ raw' = raw := by
  have behind : (name ++ ':' :: raw ++ r).drop (name.length + 1) = raw ++ r := by
    simp [List.drop_append]
  constructor
  · intro begins
    have same := nameAt_of_begins names begins
    rw [named] at same
    cases same
    have valued := valued_iff.mp begins.valued
    rw [behind, value] at valued
    exact ⟨rfl, valued.symm⟩
  · rintro ⟨rfl, rfl⟩
    have ends : ∀ c, (u ++ lead).getLast? = some c → Text.isBlank c = true := by
      intro c last
      cases opens with
      | start => cases last
      | blank isOne =>
        rw [List.getLast?_concat] at last
        cases last
        exact isOne
    have begins := begins_of_nameAt names ends clear named
    rw [behind, value] at begins
    exact begins

theorem begins_scope_iff (names : ∀ n ∈ known, Plain n) (opens : Opens u lead)
    (clear : Outside u (lead ++ (name ++ ':' :: raw) ++ r))
    (named : nameAt known (name ++ ':' :: raw ++ r) = some name)
    (value : rawValue (raw ++ r) = raw) {name' raw' : Text} {k : Nat}
    (short : k < (lead ++ (name ++ ':' :: raw)).length) :
    Begins known (u ++ (lead ++ (name ++ ':' :: raw)).take k)
        ((lead ++ (name ++ ':' :: raw)).drop k ++ r) name' raw' ↔
      k = lead.length ∧ name' = name ∧ raw' = raw := by
  have plain := plain_of_mem names (nameAt_eq_some.mp named).1
  rw [List.append_assoc] at clear
  have before := outside_lead opens clear
  -- in the lead there is only its blank, with which no name begins; past it, only the first place
  by_cases early : k < lead.length
  · constructor
    · intro begins
      cases opens with
      | start => cases early
      | blank isOne =>
        obtain rfl : k = 0 := by simpa using early
        have head := (begins_head names begins).1
        rw [isOne] at head
        cases head
    · rintro ⟨rfl, _⟩
      omega
  · obtain ⟨j, rfl⟩ := Nat.exists_eq_add_of_le (Nat.le_of_not_lt early)
    rw [List.take_length_add_append, List.drop_length_add_append, ← List.append_assoc]
    by_cases begun : 0 < j
    · have inside : j < (name ++ ':' :: raw).length := by
        rw [List.length_append] at short
        omega
      constructor
      · intro begins
        exact absurd begins (not_begins_inside plain value before begun inside)
      · rintro ⟨here, _⟩
        omega
    · obtain rfl : j = 0 := by omega
      have here :=
        @begins_span_iff known u r lead name raw names opens before named value name' raw'
      simpa using here

theorem marks_scope (names : ∀ n ∈ known, Plain n) (opens : Opens u lead)
    (clear : Outside u (lead ++ (name ++ ':' :: raw) ++ r))
    (named : nameAt known (name ++ ':' :: raw ++ r) = some name)
    (value : rawValue (raw ++ r) = raw) {m : Marker} :
    (u.length ≤ m.place ∧ Marks known (u ++ (lead ++ (name ++ ':' :: raw) ++ r)) m) ↔
      m = ⟨u.length + lead.length, name, raw⟩ ∨
        ((u ++ (lead ++ (name ++ ':' :: raw))).length ≤ m.place ∧
          Marks known (u ++ (lead ++ (name ++ ':' :: raw)) ++ r) m) := by
  rw [marks_append]
  apply or_congr_left
  constructor
  · rintro ⟨k, short, place, begins⟩
    obtain ⟨rfl, rfl, rfl⟩ := (begins_scope_iff names opens clear named value short).mp begins
    rw [← place]
  · rintro rfl
    have short : lead.length < (lead ++ (name ++ ':' :: raw)).length := by
      rw [List.length_append, List.length_append, List.length_cons]
      omega
    have begins := (begins_scope_iff names opens clear named value short).mpr ⟨rfl, rfl, rfl⟩
    exact ⟨lead.length, short, rfl, begins⟩

theorem settled_scope {t : Text} (plain : Plain name) (value : rawValue t = raw) :
    Settled known (u ++ (lead ++ (name ++ ':' :: raw))) r := by
  apply settled_solid
  intro c last
  have span : u ++ (lead ++ (name ++ ':' :: raw)) = u ++ lead ++ (name ++ [':']) ++ raw := by simp
  have head := head_solid plain
  have shape := rawValue_shape t
  rw [value] at shape
  rw [span] at last
  rcases shape with ⟨inside, _, rfl⟩ | solid
  · rw [← List.append_assoc, List.getLast?_concat] at last
    cases last
    decide +kernel
  · have member : c ∈ name ++ [':'] ++ raw := by
      rw [List.append_assoc, List.getLast?_append] at last
      apply List.mem_of_getLast?
      simpa using last
    rcases List.mem_append.mp member with ofHead | ofRaw
    · exact (head c ofHead).1
    · exact (solid c ofRaw).1

end Scope

section Scan

variable {known : List Text} {u r : Text} {ps : List (Piece Mark)}

/-- The scan meets every marker from its place on, and only those. The place is
outside every quotation, and a blank just read had no scope behind it. -/
theorem mem_markersOf (names : ∀ n ∈ known, Plain n) (reads : Reads known u r ps)
    (clear : Outside u r) (settled : Settled known u r) (m : Marker) :
    m ∈ markersOf u.length ps ↔ u.length ≤ m.place ∧ Marks known (u ++ r) m := by
  induction reads with
  | done u =>
    constructor
    · simp [markersOf]
    · rintro ⟨reached, marks⟩
      have empty : (u ++ []).drop m.place = [] := by simpa using reached
      have colon := marks.colon
      rw [empty] at colon
      simp at colon
  | @loose u r c ps unquoted atStart behind rest ih =>
    have next : Outside (u ++ [c]) r := by
      rcases unquoted with other | free
      · exact outside_append clear (by simpa [Unquoted] using other)
      · exact .inr free
    rw [marks_loose names atStart settled, markersOf_loose]
    exact ih next (settled_loose behind)
  | @quotation u inside r ps free rest ih =>
    rw [marks_quotation names clear free, markersOf_quotation]
    exact ih (outside_quotation clear free) (settled_quotation inside)
  | @scope u lead name raw r ps opens named value rest ih =>
    have plain := plain_of_mem names (nameAt_eq_some.mp named).1
    have before := outside_lead opens (by rwa [List.append_assoc] at clear)
    have after := outside_span plain value before
    rw [List.append_assoc] at after
    rw [marks_scope names opens clear named value, markersOf_scope, List.mem_cons]
    exact or_congr_right (ih after (settled_scope plain value))

theorem le_place (reads : Reads known u r ps) :
    ∀ m ∈ markersOf u.length ps, u.length ≤ m.place := by
  induction reads with
  | done u => simp [markersOf]
  | @loose u r c ps _ _ _ rest ih =>
    intro m member
    rw [markersOf_loose] at member
    have later := ih m member
    rw [List.length_append] at later
    omega
  | @quotation u inside r ps _ rest ih =>
    intro m member
    rw [markersOf_quotation] at member
    have later := ih m member
    rw [List.length_append] at later
    omega
  | @scope u lead name raw r ps _ _ _ rest ih =>
    intro m member
    rw [markersOf_scope] at member
    rcases List.mem_cons.mp member with rfl | old
    · exact Nat.le_add_right _ _
    · have later := ih m old
      rw [List.length_append] at later
      omega

theorem markersOf_pairwise (reads : Reads known u r ps) :
    (markersOf u.length ps).Pairwise fun a b => a.stop ≤ b.place := by
  induction reads with
  | done u => exact .nil
  | loose _ _ _ rest ih => rwa [markersOf_loose]
  | quotation _ rest ih => rwa [markersOf_quotation]
  | @scope u lead name raw r ps _ _ _ rest ih =>
    rw [markersOf_scope]
    apply List.Pairwise.cons _ ih
    intro m member
    have later := le_place rest m member
    simp [Marker.stop] at later ⊢
    omega

theorem scope?_eq (place : Nat) {name raw t : Text} (value : rawValue t = raw) :
    Marker.scope? ⟨place, name, raw⟩ = scopeOf (.scope name raw) := by
  subst value
  simp only [Marker.scope?, Marker.value, scopeOf, ← inner_rawValue]

theorem scopes_markersOf (reads : Reads known u r ps) :
    (Scan.values ps).filterMap scopeOf = (markersOf u.length ps).filterMap Marker.scope? := by
  induction reads with
  | done u => rfl
  | loose _ _ _ rest ih =>
    rw [markersOf_loose, ← ih]
    rfl
  | quotation _ rest ih =>
    rw [markersOf_quotation, ← ih]
    rfl
  | @scope u lead name raw r ps _ _ value rest ih =>
    rw [markersOf_scope, List.filterMap_cons, scope?_eq _ value, ← ih]
    rfl

theorem words_scope (place : Nat) {name raw t : Text} (value : rawValue t = raw)
    (span before after : Text) :
    Text.words (before ++ (leftoverOf (.token (.scope name raw) span) ++ after)) =
      Text.words before ++ (Marker.kept ⟨place, name, raw⟩).flatMap Text.words ++
        Text.words after := by
  have blank : Text.isBlank ' ' = true := by decide +kernel
  have same : inner raw = Marker.value ⟨place, name, raw⟩ := by
    rw [← value]
    exact inner_rawValue t
  rw [leftoverOf, Marker.kept, ← same]
  by_cases all : name = everyField ∧ inner raw ≠ []
  · rw [if_pos all, if_pos all, List.cons_append, List.cons_append, Text.words_append blank,
      List.append_assoc, List.singleton_append, Text.words_append blank]
    simp
  · rw [if_neg all, if_neg all, List.singleton_append, Text.words_append blank]
    simp

theorem words_leftover (reads : Reads known u r ps) {start : Nat} (reached : start ≤ u.length) :
    Text.words (u.drop start ++ ps.flatMap leftoverOf) =
      (stretches (u ++ r) start (markersOf u.length ps)).flatMap Text.words := by
  induction reads generalizing start with
  | done u => simp [markersOf, stretches]
  | @loose u r c ps _ _ _ rest ih =>
    have next := @ih start (by rw [List.length_append]; omega)
    rw [List.drop_append_of_le_length reached, List.append_assoc, List.append_assoc] at next
    rw [markersOf_loose]
    exact next
  | @quotation u inside r ps _ rest ih =>
    have next := @ih start (by rw [List.length_append]; omega)
    rw [List.drop_append_of_le_length reached, @List.append_assoc _ (u.drop start),
      @List.append_assoc _ u] at next
    rw [markersOf_quotation]
    exact next
  | @scope u lead name raw r ps opens _ value rest ih =>
    -- what comes behind the value is a stretch of its own, so the induction starts anew there
    have next := @ih (u ++ (lead ++ (name ++ ':' :: raw))).length (Nat.le_refl _)
    rw [List.drop_length, List.nil_append, List.append_assoc] at next
    have stop : Marker.stop ⟨u.length + lead.length, name, raw⟩ =
        (u ++ (lead ++ (name ++ ':' :: raw))).length := by
      simp [Marker.stop]
      omega
    have cut : (u ++ (lead ++ (name ++ ':' :: raw) ++ r)).take (u.length + lead.length) =
        u ++ lead := by
      rw [List.take_length_add_append, List.append_assoc, List.take_left]
    have parted : Text.words (u.drop start ++ lead) = Text.words (u.drop start) := by
      cases opens with
      | start => rw [List.append_nil]
      | blank isOne =>
        rw [Text.words_append isOne]
        simp [Text.words, Text.splitOn]
    rw [markersOf_scope, stretches, stop, cut, List.flatMap_cons, List.flatMap_cons,
      List.flatMap_append, ← next, List.drop_append_of_le_length reached, parted,
      words_scope (u.length + lead.length) value, List.append_assoc]

theorem reads_colonless (reads : Reads known u r ps) (colonless : ':' ∉ r) :
    ps.flatMap leftoverOf = r ∧ markersOf u.length ps = [] := by
  induction reads with
  | done u => exact ⟨rfl, rfl⟩
  | @loose u r c ps _ _ _ rest ih =>
    obtain ⟨left, none⟩ := ih fun later => colonless (List.mem_cons_of_mem c later)
    rw [markersOf_loose, List.flatMap_cons, left]
    exact ⟨rfl, none⟩
  | @quotation u inside r ps _ rest ih =>
    obtain ⟨left, none⟩ := ih fun later => colonless (List.mem_append_right _ later)
    rw [markersOf_quotation, List.flatMap_cons, left]
    exact ⟨rfl, none⟩
  | scope => simp at colonless

end Scan

theorem markers_colonless {t : Text} (colonless : ':' ∉ t) (known : List Text) :
    markers known t = [] :=
  (reads_colonless (reads_behind known [] t) colonless).2

theorem split_colonless {t : Text} (colonless : ':' ∉ t) (known : List Text) :
    split known t = ⟨[], Text.collapse t⟩ := by
  have reads := reads_behind known [] t
  obtain ⟨left, none⟩ := reads_colonless reads colonless
  have scopes := scopes_markersOf reads
  rw [none] at scopes
  have whole : split known t = ⟨(Scan.values (Scan.pieces (find known) t)).filterMap scopeOf,
      Text.collapse ((Scan.pieces (find known) t).flatMap leftoverOf)⟩ := rfl
  rw [whole, Scan.pieces]
  exact congr (congrArg Scoped.mk scopes) (congrArg Text.collapse left)

/-- Splitting a text is finding its markers and cutting them out. -/
theorem split_exact {known : List Text} (names : ∀ n ∈ known, Plain n) (t : Text) :
    (∀ m, m ∈ markers known t ↔ Marks known t m) ∧
      (markers known t).Pairwise (fun a b => a.stop ≤ b.place) ∧
      (split known t).scopes = (markers known t).filterMap Marker.scope? ∧
      (split known t).leftover =
        Text.joined [' '] ((stretches t 0 (markers known t)).flatMap Text.words) := by
  have reads := reads_behind known [] t
  constructor
  · intro m
    have found := mem_markersOf names reads (.inl rfl) settled_nil m
    simpa [markers, Scan.pieces] using found
  constructor
  · exact markersOf_pairwise reads
  constructor
  · exact scopes_markersOf reads
  · have same := words_leftover reads (Nat.le_refl _)
    exact congrArg (Text.joined [' ']) same

theorem split_exact_baker :
    (∀ n ∈ ["naam".toList], Plain n) ∧
      (split ["naam".toList] "bij naam:jan alles:\"de bakker\"smid".toList).scopes =
        [⟨"naam".toList, "jan".toList⟩] ∧
      (split ["naam".toList] "bij naam:jan alles:\"de bakker\"smid".toList).leftover =
        "bij \"de bakker\" smid".toList := by
  have names : ∀ n ∈ ["naam".toList], Plain n := by
    intro n listed
    rw [List.mem_singleton.mp listed]
    constructor
    · decide
    · exact Text.forall_of_all (by decide +kernel)
  have given : markers ["naam".toList] "bij naam:jan alles:\"de bakker\"smid".toList =
      [⟨4, "naam".toList, "jan".toList⟩, ⟨13, everyField, "\"de bakker\"".toList⟩] := by
    decide +kernel
  obtain ⟨_, _, scopes, leftover⟩ :=
    split_exact names "bij naam:jan alles:\"de bakker\"smid".toList
  rw [given] at scopes leftover
  exact ⟨names, scopes.trans (by decide +kernel), leftover.trans (by decide +kernel)⟩

end Scope

end CardCatalog
