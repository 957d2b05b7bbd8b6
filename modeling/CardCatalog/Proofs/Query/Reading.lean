import CardCatalog.Query.Scope
import CardCatalog.Proofs.Text.Scan

/-!
How a text is read for scopes. `Reads` says what the scan does at a place, with
what stands before it: a character is passed over, a quotation is kept, or a
scope begins. Whatever is to be known about the scan follows by induction on it.
-/

namespace CardCatalog

namespace Scope

/-- What a name has to be so that it neither ends a word nor opens a quotation. -/
def Plain (name : Text) : Prop :=
  name ≠ [] ∧ ∀ c ∈ name, Text.isBlank c = false ∧ Text.isQuote c = false

theorem everyField_plain : Plain everyField := by
  constructor
  · decide
  · exact Text.forall_of_all (by decide +kernel)

theorem isQuote_iff {c : Char} : Text.isQuote c = true ↔ c = '"' := by
  simp [Text.isQuote]

theorem not_quote_of_blank {c : Char} (blank : Text.isBlank c = true) : Text.isQuote c = false := by
  cases quote : Text.isQuote c with
  | false => rfl
  | true =>
    rw [isQuote_iff.mp quote] at blank
    exact absurd blank (by decide +kernel)

section Names

variable {known : List Text} {t name other : Text}

theorem fits_iff : fits t name = true ↔ name ≠ [] ∧ name ++ [':'] <+: t := by
  simp [fits, Text.startsWith, List.isPrefixOf_iff_prefix]

theorem longest_eq_none {names : List Text} : longest names = none ↔ names = [] := by
  cases names with
  | nil => simp [longest]
  | cons first rest =>
    unfold longest
    split
    · split <;> simp
    · simp

theorem longest_eq_some {names : List Text} (found : longest names = some name) :
    name ∈ names ∧ ∀ n ∈ names, n.length ≤ name.length := by
  induction names generalizing name with
  | nil => cases found
  | cons first rest ih =>
    unfold longest at found
    cases tail : longest rest with
    | none =>
      rw [tail] at found
      cases found
      simp [longest_eq_none.mp tail]
    | some best =>
      obtain ⟨inside, most⟩ := ih tail
      rw [tail] at found
      by_cases shorter : first.length < best.length
      · simp only [if_pos shorter] at found
        cases found
        refine ⟨List.mem_cons_of_mem first inside, fun n member => ?_⟩
        rcases List.mem_cons.mp member with rfl | old
        · omega
        · exact most n old
      · simp only [if_neg shorter] at found
        cases found
        refine ⟨by simp, fun n member => ?_⟩
        rcases List.mem_cons.mp member with rfl | old
        · omega
        · have := most n old
          omega

theorem fits_unique (one : fits t name = true) (two : fits t other = true)
    (same : name.length = other.length) : name = other := by
  obtain ⟨_, first⟩ := fits_iff.mp one
  obtain ⟨_, second⟩ := fits_iff.mp two
  have whole : name ++ [':'] <+: other ++ [':'] :=
    List.prefix_of_prefix_length_le first second (by simp [same])
  have equal := whole.eq_of_length (by simp [same])
  exact List.append_cancel_right equal

theorem nameAt_eq_none :
    nameAt known t = none ↔ ∀ n ∈ everyField :: known, fits t n = false := by
  rw [nameAt, longest_eq_none, List.filter_eq_nil_iff]
  simp

theorem nameAt_eq_some :
    nameAt known t = some name ↔
      name ∈ everyField :: known ∧ fits t name = true ∧
        ∀ n ∈ everyField :: known, fits t n = true → n.length ≤ name.length := by
  constructor
  · intro found
    obtain ⟨inside, most⟩ := longest_eq_some found
    obtain ⟨among, fit⟩ := List.mem_filter.mp inside
    exact ⟨among, fit, fun n member other => most n (List.mem_filter.mpr ⟨member, other⟩)⟩
  · rintro ⟨among, fit, most⟩
    cases found : nameAt known t with
    | none =>
      rw [nameAt_eq_none.mp found name among] at fit
      cases fit
    | some best =>
      obtain ⟨inside, longer⟩ := longest_eq_some found
      obtain ⟨listed, fitting⟩ := List.mem_filter.mp inside
      have above := most best listed fitting
      have below := longer name (List.mem_filter.mpr ⟨among, fit⟩)
      rw [fits_unique fitting fit (by omega)]

theorem plain_of_mem (names : ∀ n ∈ known, Plain n) (among : name ∈ everyField :: known) :
    Plain name := by
  rcases List.mem_cons.mp among with rfl | listed
  · exact everyField_plain
  · exact names name listed

theorem nameAt_blocked (names : ∀ n ∈ known, Plain n) {c : Char} {r : Text}
    (blocked : Text.isBlank c = true ∨ Text.isQuote c = true) : nameAt known (c :: r) = none := by
  apply nameAt_eq_none.mpr
  intro n listed
  cases fit : fits (c :: r) n with
  | false => rfl
  | true =>
    obtain ⟨filled, start⟩ := fits_iff.mp fit
    have plain := plain_of_mem names listed
    cases n with
    | nil => exact absurd rfl filled
    | cons d more =>
      have same : d = c := (List.cons_prefix_cons.mp start).1
      have clean := plain.2 d (by simp)
      rw [same] at clean
      simp [clean] at blocked

end Names

/-- Nothing in the text opens or closes a quotation. -/
def Unquoted (t : Text) : Prop := ∀ c ∈ t, Text.isQuote c = false

section Values

variable {t raw inside rest : Text}

theorem first_quote (present : t.any Text.isQuote = true) :
    ∃ inside rest, Unquoted inside ∧ t = inside ++ '"' :: rest := by
  induction t with
  | nil => cases present
  | cons c more ih =>
    cases quote : Text.isQuote c with
    | true =>
      rw [isQuote_iff.mp quote]
      exact ⟨[], more, by simp [Unquoted], rfl⟩
    | false =>
      have later : more.any Text.isQuote = true := by simpa [quote] using present
      obtain ⟨inside, rest, free, rfl⟩ := ih later
      exact ⟨c :: inside, rest, by simpa [Unquoted, quote] using free, rfl⟩

theorem quotation_closed (free : Unquoted inside) :
    quotation? ('"' :: inside ++ '"' :: rest) = some ('"' :: inside ++ ['"']) := by
  have run : (inside ++ '"' :: rest).takeWhile (!Text.isQuote ·) = inside := by
    rw [List.takeWhile_append_of_pos (by simpa [Unquoted] using free)]
    simp [Text.isQuote]
  rw [List.cons_append, quotation?, if_pos (by simp [Text.isQuote]), run]

theorem quotation_eq_some :
    quotation? t = some raw ↔
      ∃ inside rest, Unquoted inside ∧
        t = '"' :: inside ++ '"' :: rest ∧ raw = '"' :: inside ++ ['"'] := by
  constructor
  · intro found
    cases t with
    | nil => cases found
    | cons c after =>
      by_cases both : (Text.isQuote c && after.any Text.isQuote) = true
      · obtain ⟨opening, closing⟩ := Bool.and_eq_true_iff.mp both
        obtain ⟨inside, rest, free, rfl⟩ := first_quote closing
        rw [isQuote_iff.mp opening] at found ⊢
        rw [← List.cons_append, quotation_closed free] at found
        cases found
        exact ⟨inside, rest, free, rfl, rfl⟩
      · rw [quotation?, if_neg both] at found
        cases found
  · rintro ⟨inside, rest, free, rfl, rfl⟩
    exact quotation_closed free

theorem quotation_eq_none {c : Char} :
    quotation? (c :: rest) = none ↔ Text.isQuote c = false ∨ Unquoted rest := by
  rw [quotation?]
  cases quote : Text.isQuote c with
  | false => simp
  | true => simp [Unquoted]

theorem rawValue_shape (t : Text) :
    (∃ inside, Unquoted inside ∧ rawValue t = '"' :: inside ++ ['"']) ∨
      ∀ c ∈ rawValue t, Text.isBlank c = false ∧ Text.isQuote c = false := by
  unfold rawValue
  cases found : quotation? t with
  | some raw =>
    obtain ⟨inside, rest, free, _, rfl⟩ := quotation_eq_some.mp found
    exact .inl ⟨inside, free, rfl⟩
  | none =>
    apply Or.inr
    intro c member
    have solid := List.all_takeWhile (l := t) (p := fun c => !Text.isBlank c && !Text.isQuote c)
    simpa using List.all_eq_true.mp solid c member

theorem rawValue_append (t : Text) : ∃ rest, t = rawValue t ++ rest := by
  unfold rawValue
  cases found : quotation? t with
  | some raw =>
    obtain ⟨inside, rest, _, rfl, rfl⟩ := quotation_eq_some.mp found
    exact ⟨rest, by simp⟩
  | none => exact ⟨_, (List.takeWhile_append_dropWhile).symm⟩

theorem scopeAt_eq_some {known : List Text} {found : Mark × Nat}
    (opens : scopeAt known t = some found) :
    ∃ name raw rest, t = name ++ ':' :: raw ++ rest ∧ nameAt known t = some name ∧
      rawValue (raw ++ rest) = raw ∧ found = (.scope name raw, name.length + 1 + raw.length) := by
  obtain ⟨name, named, rfl⟩ := Option.map_eq_some_iff.mp opens
  obtain ⟨_, fit, _⟩ := nameAt_eq_some.mp named
  obtain ⟨_, behind, rfl⟩ := fits_iff.mp fit
  have value : (name ++ [':'] ++ behind).drop (name.length + 1) = behind := by simp
  obtain ⟨rest, split⟩ := rawValue_append behind
  refine ⟨name, rawValue behind, rest, ?_, named, ?_, ?_⟩
  · simp [← split]
  · rw [← split]
  · simp only [value]

end Values

/-- What a scope takes before its name: nothing at the start, else one blank. -/
inductive Opens : Text → Text → Prop where
  | start : Opens [] []
  | blank {u : Text} {b : Char} (isOne : Text.isBlank b = true) : Opens u [b]

theorem quotation_lead {u lead t : Text} (opens : Opens u lead) (unquoted : quotation? t = none) :
    quotation? (lead ++ t) = none := by
  cases opens with
  | start => exact unquoted
  | blank isOne => exact quotation_eq_none.mpr (.inl (not_quote_of_blank isOne))

theorem nameAt_lead {known : List Text} {u lead t : Text} (names : ∀ n ∈ known, Plain n)
    (opens : Opens u lead) (filled : lead ≠ []) : nameAt known (lead ++ t) = none := by
  cases opens with
  | start => exact absurd rfl filled
  | blank isOne => exact nameAt_blocked names (.inl isOne)

/-- The text before a place, the text from there on, and the pieces of the latter. -/
inductive Reads (known : List Text) : Text → Text → List (Piece Mark) → Prop where
  | done (u : Text) : Reads known u [] []
  | loose {u r : Text} {c : Char} {ps : List (Piece Mark)}
      (unquoted : Text.isQuote c = false ∨ Unquoted r)
      (atStart : u = [] → nameAt known (c :: r) = none)
      (behind : Text.isBlank c = true → nameAt known r = none)
      (rest : Reads known (u ++ [c]) r ps) : Reads known u (c :: r) (.loose c :: ps)
  | quotation {u inside r : Text} {ps : List (Piece Mark)} (free : Unquoted inside)
      (rest : Reads known (u ++ ('"' :: inside ++ ['"'])) r ps) :
      Reads known u ('"' :: inside ++ ['"'] ++ r)
        (.token .quotation ('"' :: inside ++ ['"']) :: ps)
  | scope {u lead name raw r : Text} {ps : List (Piece Mark)} (opens : Opens u lead)
      (named : nameAt known (name ++ ':' :: raw ++ r) = some name)
      (value : rawValue (raw ++ r) = raw)
      (rest : Reads known (u ++ (lead ++ (name ++ ':' :: raw))) r ps) :
      Reads known u (lead ++ (name ++ ':' :: raw) ++ r)
        (.token (.scope name raw) (lead ++ (name ++ ':' :: raw)) :: ps)

section Find

variable {known : List Text} {u r : Text} {c : Char}

theorem find_quotation {raw : Text} (before : Option Char)
    (quoted : quotation? (c :: r) = some raw) :
    find known before (c :: r) = some (.quotation, raw.length) := by
  simp [find, quoted]

theorem find_unquoted (none : quotation? (c :: r) = none) :
    find known u.getLast? (c :: r) =
      ((if u = [] then scopeAt known (c :: r) else Option.none).or
        (if Text.isBlank c then
          (scopeAt known r).map fun found => (found.1, found.2 + 1)
        else Option.none)) := by
  have first : u.getLast?.isNone = decide (u = []) := by cases u <;> simp
  simp only [find, none, first, decide_eq_true_eq]
  split <;> simp_all

theorem find_eq_none (unquoted : Text.isQuote c = false ∨ Unquoted r)
    (atStart : u = [] → nameAt known (c :: r) = none)
    (behind : Text.isBlank c = true → nameAt known r = none) :
    find known u.getLast? (c :: r) = none := by
  have start : (if u = [] then scopeAt known (c :: r) else none) = none := by
    by_cases first : u = []
    · rw [if_pos first, scopeAt, atStart first]
      rfl
    · rw [if_neg first]
  rw [find_unquoted (quotation_eq_none.mpr unquoted), start, Option.none_or]
  cases blank : Text.isBlank c with
  | false => rfl
  | true =>
    rw [if_pos rfl, scopeAt, behind blank]
    rfl

theorem find_opens {lead t : Text} {a : Mark} {count : Nat} (opens : Opens u lead)
    (unquoted : quotation? (lead ++ t) = none)
    (blocked : lead ≠ [] → u = [] → nameAt known (lead ++ t) = none)
    (begins : scopeAt known t = some (a, count)) :
    find known u.getLast? (lead ++ t) = some (a, lead.length + count) := by
  cases opens with
  | start =>
    cases t with
    | nil =>
      obtain ⟨name, raw, rest, empty, _⟩ := scopeAt_eq_some begins
      simp at empty
    | cons c more =>
      have step := @find_unquoted known [] more c unquoted
      rw [if_pos rfl, begins, Option.some_or] at step
      simpa using step
  | @blank u b isOne =>
    have nothing : (if u = [] then scopeAt known (b :: t) else none) = none := by
      by_cases first : u = []
      · have hidden : nameAt known (b :: t) = none := blocked (by simp) first
        rw [if_pos first, scopeAt, hidden]
        rfl
      · rw [if_neg first]
    have step := @find_unquoted known u t b unquoted
    rw [nothing, Option.none_or, if_pos isOne, begins] at step
    rw [List.singleton_append, step, List.length_singleton, Nat.add_comm]
    rfl

theorem find_scope {lead name raw : Text} (names : ∀ n ∈ known, Plain n) (opens : Opens u lead)
    (named : nameAt known (name ++ ':' :: raw ++ r) = some name)
    (value : rawValue (raw ++ r) = raw) :
    find known u.getLast? (lead ++ (name ++ ':' :: raw) ++ r) =
      some (.scope name raw, (lead ++ (name ++ ':' :: raw)).length) := by
  have plain := plain_of_mem names (nameAt_eq_some.mp named).1
  have behind : (name ++ ':' :: raw ++ r).drop (name.length + 1) = raw ++ r := by
    simp [List.drop_append]
  have begins : scopeAt known (name ++ ':' :: raw ++ r) =
      some (.scope name raw, name.length + 1 + raw.length) := by
    rw [scopeAt, named, Option.map_some, behind, value]
  have unquoted : quotation? (name ++ ':' :: raw ++ r) = none := by
    obtain ⟨c, more, same⟩ := List.exists_cons_of_ne_nil plain.1
    rw [same]
    exact quotation_eq_none.mpr (.inl (plain.2 c (by simp [same])).2)
  have found := find_opens opens (quotation_lead opens unquoted)
    (fun filled _ => nameAt_lead names opens filled) begins
  have count : lead.length + (name.length + 1 + raw.length) =
      (lead ++ (name ++ ':' :: raw)).length := by
    simp
    omega
  rw [count, ← List.append_assoc] at found
  exact found

end Find

section Run

variable {known : List Text} {u lead t : Text}

theorem reads_scope (opens : Opens u lead) (unquoted : quotation? (lead ++ t) = none)
    (blocked : lead ≠ [] → u = [] → nameAt known (lead ++ t) = none)
    (named : nameAt known t ≠ none)
    (later : ∀ v r, r.length < (lead ++ t).length →
      Reads known v r (Scan.behind (find known) 0 v.getLast? r)) :
    Reads known u (lead ++ t) (Scan.behind (find known) 0 u.getLast? (lead ++ t)) := by
  cases begins : scopeAt known t with
  | none => exact absurd (Option.map_eq_none_iff.mp begins) named
  | some found =>
    have here := find_opens opens unquoted blocked begins
    obtain ⟨name, raw, rest, rfl, meant, value, rfl⟩ := scopeAt_eq_some begins
    have length : lead.length + (name.length + 1 + raw.length) =
        (lead ++ (name ++ ':' :: raw)).length := by
      simp
      omega
    rw [length, ← List.append_assoc] at here
    rw [← List.append_assoc, Scan.behind_token (by simp) here]
    apply Reads.scope opens meant value
    apply later
    rw [List.length_append, List.length_append, List.length_append, List.length_cons]
    omega

/-- The scan reads every text. A scope begins at the start or behind a blank;
where neither has a name, a character that opens no quotation is passed over. -/
theorem reads_behind (known : List Text) (u r : Text) :
    Reads known u r (Scan.behind (find known) 0 u.getLast? r) := by
  induction size : r.length using Nat.strongRecOn generalizing u r with
  | ind n ih =>
    subst size
    have later (v t : Text) (shorter : t.length < r.length) :
        Reads known v t (Scan.behind (find known) 0 v.getLast? t) := ih _ shorter v t rfl
    cases r with
    | nil => exact .done u
    | cons c r =>
      cases quoted : quotation? (c :: r) with
      | some raw =>
        obtain ⟨inside, rest, free, same, rfl⟩ := quotation_eq_some.mp quoted
        have split : c :: r = '"' :: inside ++ ['"'] ++ rest := by simp [same]
        have found := @find_quotation known r c _ u.getLast? quoted
        rw [split] at found ⊢
        rw [Scan.behind_token (by simp) found]
        apply Reads.quotation free
        apply later
        rw [split, List.length_append, List.length_append, List.length_singleton]
        omega
      | none =>
        by_cases atStart : u = [] → nameAt known (c :: r) = none
        · by_cases behind : Text.isBlank c = true → nameAt known r = none
          · have unquoted := quotation_eq_none.mp quoted
            rw [Scan.behind_loose (find_eq_none unquoted atStart behind)]
            exact .loose unquoted atStart behind (later _ r (by simp))
          · obtain ⟨blank, named⟩ := Classical.not_imp.mp behind
            exact reads_scope (.blank blank) quoted (fun _ => atStart) named later
        · obtain ⟨rfl, named⟩ := Classical.not_imp.mp atStart
          exact reads_scope .start quoted (fun lead => absurd rfl lead) named later

/-- A text is read in one way only. -/
theorem behind_of_reads (names : ∀ n ∈ known, Plain n) {ps : List (Piece Mark)}
    (reads : Reads known u t ps) : Scan.behind (find known) 0 u.getLast? t = ps := by
  induction reads with
  | done u => rfl
  | loose unquoted atStart behind _ ih =>
    rw [Scan.behind_loose (find_eq_none unquoted atStart behind), ih]
  | @quotation u inside r ps free _ ih =>
    have closed : quotation? ('"' :: (inside ++ ['"'] ++ r)) = some ('"' :: inside ++ ['"']) := by
      simpa using @quotation_closed inside r free
    rw [Scan.behind_token (by simp) (find_quotation _ closed), ih]
  | scope opens named value _ ih =>
    rw [Scan.behind_token (by simp) (find_scope names opens named value), ih]

theorem reads_pieces (known : List Text) (t : Text) :
    Reads known [] t (Scan.pieces (find known) t) := reads_behind known [] t

theorem pieces_of_reads (names : ∀ n ∈ known, Plain n) {ps : List (Piece Mark)}
    (reads : Reads known [] t ps) : Scan.pieces (find known) t = ps := behind_of_reads names reads

end Run

end Scope

end CardCatalog
