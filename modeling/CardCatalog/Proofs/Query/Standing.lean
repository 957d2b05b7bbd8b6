import CardCatalog.Proofs.Query.Quotation
import CardCatalog.Proofs.Query.Reading
import CardCatalog.Proofs.Text.Parted

/-!
Words that stand by themselves. A scope or a quotation either leaves such a word
alone or takes it in as a whole, so it is a word of the value of a scope or a word of
what the scopes leave. Quotes behind the word do no harm.
-/

namespace CardCatalog

namespace Text

/-- Only quotes stand before the next separator or the end. -/
inductive Closes (p : Char → Bool) : Text → Prop where
  | done : Closes p []
  | separator {c : Char} {r : Text} (ends : p c = true) : Closes p (c :: r)
  | quote {r : Text} (rest : Closes p r) : Closes p ('"' :: r)

section Closes

variable {p : Char → Bool} {r m l : Text}

theorem closes_cons {c : Char} : Closes p (c :: r) ↔ p c = true ∨ c = '"' ∧ Closes p r := by
  constructor
  · intro closes
    cases closes with
    | separator ends => exact .inl ends
    | quote rest => exact .inr ⟨rfl, rest⟩
  · rintro (ends | ⟨rfl, rest⟩)
    · exact .separator ends
    · exact .quote rest

theorem closes_head {c : Char} (closes : Closes p r) (head : r.head? = some c) :
    p c = true ∨ isQuote c = true := by
  cases closes with
  | done => cases head
  | separator ends =>
    cases head
    exact .inl ends
  | quote rest =>
    cases head
    exact .inr (by decide)

theorem closes_append (closes : Closes p (m ++ r)) (kept : Closes p r → Closes p l) :
    Closes p (m ++ l) := by
  induction m with
  | nil => exact kept closes
  | cons c rest ih =>
    rcases closes_cons.mp closes with ends | ⟨rfl, later⟩
    · exact .separator ends
    · exact .quote (ih later)

theorem closes_split (closes : Closes p r) :
    ∃ quotes rest, r = quotes ++ rest ∧ (∀ c ∈ quotes, isQuote c = true) ∧
      ∀ c ∈ rest.head?, p c = true := by
  induction closes with
  | done => exact ⟨[], [], rfl, by simp, by simp⟩
  | @separator c r ends => exact ⟨[], c :: r, rfl, by simp, by simp [ends]⟩
  | quote _ ih =>
    obtain ⟨quotes, rest, rfl, all, head⟩ := ih
    exact ⟨'"' :: quotes, rest, rfl, by simpa [isQuote] using all, head⟩

theorem closes_of_head (head : ∀ c ∈ r.head?, p c = true) : Closes p r := by
  cases r with
  | nil => exact .done
  | cons c rest => exact .separator (head c rfl)

theorem closes_quotes {quotes : Text} (all : ∀ c ∈ quotes, isQuote c = true) (closes : Closes p r) :
    Closes p (quotes ++ r) := by
  induction quotes with
  | nil => exact closes
  | cons c rest ih =>
    rw [Scope.isQuote_iff.mp (all c (by simp))]
    exact .quote (ih fun d member => all d (List.mem_cons_of_mem c member))

theorem mem_parted_of_closes {k before after : Text} (filled : k ≠ [])
    (solid : ∀ c ∈ k, p c = false) (quote : p '"' = false)
    (left : ∀ c ∈ before.getLast?, p c = true) (closes : Closes p after) :
    ∃ quotes, (∀ c ∈ quotes, isQuote c = true) ∧ k ++ quotes ∈ parted p (before ++ (k ++ after)) := by
  obtain ⟨quotes, rest, rfl, all, head⟩ := closes_split closes
  refine ⟨quotes, all, mem_parted.mpr ⟨by simp [filled], ?_, before, rest, by simp, left, head⟩⟩
  intro c member
  rcases List.mem_append.mp member with inside | behind
  · exact solid c inside
  · rw [Scope.isQuote_iff.mp (all c behind)]
    exact quote

end Closes

end Text

namespace Scope

/-- Nothing in the word ends it, opens a quotation or makes a name of it. -/
def Solid (k : Text) : Prop :=
  k ≠ [] ∧ ∀ c ∈ k, Text.isBlank c = false ∧ Text.isQuote c = false ∧ c ≠ ':'

section Word

variable {known : List Text} {u r k e name : Text} {ps : List (Piece Mark)}

theorem colon_solid : Text.isBlank ':' = false ∧ Text.isQuote ':' = false := by decide +kernel

theorem not_named (plain : Plain name) (solid : ∀ c ∈ k, c ≠ ':')
    (closes : Text.Closes Text.isBlank e) : ¬ name ++ [':'] <+: k ++ e := by
  rintro ⟨z, same⟩
  have cut : ∀ x, e = x ++ ':' :: z → x <:+ name → False := by
    rintro x rfl suffix
    cases x with
    | nil =>
      rcases Text.closes_head closes rfl with blank | quote
      · rw [colon_solid.1] at blank
        cases blank
      · rw [colon_solid.2] at quote
        cases quote
    | cons d more =>
      have inside := plain.2 d (suffix.subset (by simp))
      rcases Text.closes_head closes rfl with blank | quote
      · rw [inside.1] at blank
        cases blank
      · rw [inside.2] at quote
        cases quote
  rw [List.append_assoc, List.singleton_append] at same
  rcases List.append_eq_append_iff.mp same with ⟨x, rfl, rest⟩ | ⟨x, rfl, rest⟩
  · cases x with
    | nil => exact cut [] rest.symm (List.nil_suffix)
    | cons d more =>
      rw [List.cons_append] at rest
      exact solid d (by simp) (List.cons.inj rest).1.symm
  · exact cut x rest (List.suffix_append k x)

theorem reads_word (names : ∀ n ∈ known, Plain n)
    (solid : ∀ c ∈ k, Text.isBlank c = false ∧ Text.isQuote c = false ∧ c ≠ ':')
    (closes : Text.Closes Text.isBlank e) (reads : Reads known u (k ++ e) ps) :
    ∃ qs, ps = k.map .loose ++ qs ∧ Reads known (u ++ k) e qs := by
  induction k generalizing u ps with
  | nil => exact ⟨ps, rfl, by simpa using reads⟩
  | cons c k ih =>
    obtain ⟨unblank, unquoted, _⟩ := solid c (by simp)
    generalize shape : c :: k ++ e = r at reads
    cases reads with
    | done => cases shape
    | loose _ _ _ rest =>
      obtain ⟨rfl, rfl⟩ := List.cons.inj shape
      obtain ⟨qs, rfl, later⟩ := ih (fun d member => solid d (List.mem_cons_of_mem c member)) rest
      exact ⟨qs, rfl, by simpa using later⟩
    | quotation _ _ =>
      rw [(List.cons.inj shape).1] at unquoted
      cases unquoted
    | @scope _ lead name raw r _ opens named _ _ =>
      cases opens with
      | start =>
        have plain := plain_of_mem names (nameAt_eq_some.mp named).1
        refine absurd ?_ (not_named plain (fun d member => (solid d member).2.2) closes)
        exact ⟨raw ++ r, by simp [shape]⟩
      | blank isOne =>
        rw [(List.cons.inj shape).1, isOne] at unblank
        cases unblank

theorem closes_leftover (reads : Reads known u r ps) (begun : u ≠ [])
    (closes : Text.Closes Text.isBlank r) : Text.Closes Text.isBlank (ps.flatMap leftoverOf) := by
  induction reads with
  | done u => exact .done
  | @loose u r c ps _ _ _ rest ih =>
    rcases Text.closes_cons.mp closes with blank | ⟨rfl, later⟩
    · exact .separator blank
    · exact .quote (ih (by simp) later)
  | @quotation u inside r ps free rest ih =>
    exact Text.closes_append closes (ih (by simp))
  | @scope u lead name raw r ps opens named value rest ih =>
    cases opens with
    | start => exact absurd rfl begun
    | blank _ =>
      rw [List.flatMap_cons, leftoverOf]
      split <;> exact .separator Text.space_blank

/-- The word is in the value of a scope, or it stands in what is left. -/
def Kept (k : Text) (ps : List (Piece Mark)) : Prop :=
  (∃ scope ∈ (Scan.values ps).filterMap scopeOf, k ∈ Text.keywords scope.value) ∨
    ∃ before b after, ps.flatMap leftoverOf = before ++ b :: (k ++ after) ∧
      Text.isBlank b = true ∧ Text.Closes Text.isBlank after

theorem kept_cons (piece : Piece Mark) (kept : Kept k ps) : Kept k (piece :: ps) := by
  rcases kept with ⟨scope, listed, word⟩ | ⟨before, b, after, left, blank, closes⟩
  · left
    refine ⟨scope, ?_, word⟩
    cases piece with
    | loose c => exact listed
    | token mark raw =>
      cases made : scopeOf mark with
      | none => simpa [Scan.values, Piece.value?, made] using listed
      | some other => 
        simpa [Scan.values, Piece.value?, made] using Or.inr listed
  · right
    exact ⟨leftoverOf piece ++ before, b, after, by simp [left], blank, closes⟩

theorem word_of_quotation {inside before : Text} {b : Char}
    (solid : Solid k) (blank : Text.isBlank b = true)
    (shape : '"' :: inside ++ ['"'] ++ r = before ++ b :: (k ++ e)) :
    (∃ more, before = '"' :: inside ++ ['"'] ++ more ∧ r = more ++ b :: (k ++ e)) ∨
      ∃ front back, before = '"' :: front ∧ inside = front ++ b :: (k ++ back) ∧
        e = back ++ '"' :: r := by
  have other : ∀ c, Text.isQuote c = true → c ≠ b := by
    rintro c quote rfl
    rw [not_quote_of_blank blank] at quote
    cases quote
  rcases List.append_eq_append_iff.mp shape with ⟨more, split, rest⟩ | ⟨more, split, rest⟩
  · exact .inl ⟨more, split, rest⟩
  -- the blank is within the quotation, as no quote is blank; so is the whole word
  · cases more with
    | nil => exact .inl ⟨[], by simpa using split.symm, by simpa using rest.symm⟩
    | cons c later =>
      obtain ⟨rfl, behind⟩ := List.cons.inj rest
      cases before with
      | nil => exact absurd (List.cons.inj split).1 (other '"' (by decide))
      | cons d front =>
        obtain ⟨rfl, within⟩ := List.cons.inj split
        rcases List.eq_nil_or_concat' later with rfl | ⟨init, d, rfl⟩
        · obtain ⟨_, last⟩ := List.append_inj' within rfl
          exact absurd (List.singleton_inj.mp last) (other '"' (by decide))
        · have ends : inside ++ ['"'] = (front ++ b :: init) ++ [d] := by simpa using within
          obtain ⟨same, last⟩ := List.append_inj' ends rfl
          cases List.singleton_inj.mp last
          replace behind : k ++ e = init ++ '"' :: r := by simpa using behind
          rcases List.append_eq_append_iff.mp behind with ⟨back, rfl, closing⟩ | ⟨back, rfl, closing⟩
          · exact .inr ⟨front, back, rfl, same, closing⟩
          · cases back with
            | nil => exact .inr ⟨front, [], rfl, by simpa using same, by simpa using closing.symm⟩
            | cons d rest =>
              rw [List.cons_append] at closing
              have quote := (solid.2 d (by simp)).2.1
              rw [← (List.cons.inj closing).1] at quote
              cases quote

theorem mem_keywords {t : Text} (solid : Solid k) {quotes : Text}
    (all : ∀ c ∈ quotes, Text.isQuote c = true) (word : k ++ quotes ∈ Text.words t) :
    k ∈ Text.keywords t := by
  have free : ∀ c ∈ k, Text.isQuote c = false := fun c member => (solid.2 c member).2.1
  have bare := @Text.stripped_around _ [] k quotes (by simp) free all
  rw [List.nil_append] at bare
  exact List.mem_filter.mpr ⟨List.mem_map.mpr ⟨_, word, bare⟩, by simpa using solid.1⟩

theorem mem_words_quoted {inside front back : Text} {b : Char} (free : Unquoted inside)
    (solid : Solid k) (blank : Text.isBlank b = true) (shape : inside = front ++ b :: (k ++ back))
    (closes : Text.Closes Text.isBlank (back ++ '"' :: r)) : k ∈ Text.words inside := by
  rw [Text.words_eq_parted, Text.mem_parted]
  refine ⟨solid.1, fun c member => (solid.2 c member).1, front ++ [b], back, by simp [shape], ?_, ?_⟩
  · simpa using blank
  · intro c head
    obtain ⟨more, rfl⟩ := List.head?_eq_some_iff.mp head
    rcases Text.closes_head closes rfl with ends | quote
    · exact ends
    · rw [free c (by simp [shape])] at quote
      cases quote

theorem word_of_scope {lead raw before : Text} {b : Char} (opens : Opens u lead)
    (plain : Plain name) (solid : Solid k) (closes : Text.Closes Text.isBlank e)
    (blank : Text.isBlank b = true)
    (shape : lead ++ (name ++ ':' :: raw) ++ r = before ++ b :: (k ++ e)) :
    ∃ more, before = lead ++ (name ++ [':']) ++ more ∧ raw ++ r = more ++ b :: (k ++ e) := by
  have unblank : b ∉ name ++ [':'] := by
    intro inside
    rcases List.mem_append.mp inside with among | colon
    · rw [(plain.2 b among).1] at blank
      cases blank
    · rw [List.mem_singleton.mp colon, colon_solid.1] at blank
      cases blank
  replace shape : lead ++ (name ++ [':']) ++ (raw ++ r) = before ++ b :: (k ++ e) := by
    simpa using shape
  rcases List.append_eq_append_iff.mp shape with ⟨more, split, rest⟩ | ⟨more, split, rest⟩
  · exact ⟨more, split, rest⟩
  · cases more with
    | nil => exact ⟨[], by simpa using split.symm, by simpa using rest.symm⟩
    | cons c later =>
      obtain ⟨rfl, behind⟩ := List.cons.inj rest
      cases opens with
      | start =>
        rw [List.nil_append] at split
        exact absurd (by simp [split]) unblank
      | blank _ =>
        cases before with
        | nil =>
          -- the word begins where the name does
          have same : name ++ [':'] = later := (List.cons.inj split).2
          rw [← same] at behind
          exact absurd ⟨raw ++ r, behind.symm⟩
            (not_named plain (fun d member => (solid.2 d member).2.2) closes)
        | cons d front =>
          have same : name ++ [':'] = front ++ b :: later := (List.cons.inj split).2
          exact absurd (by simp [same]) unblank

theorem kept_of_value {inside front back span : Text} {b : Char} (solid : Solid k)
    (free : Unquoted inside) (blank : Text.isBlank b = true)
    (shape : inside = front ++ b :: (k ++ back))
    (closes : Text.Closes Text.isBlank (back ++ '"' :: r)) :
    Kept k (.token (.scope name ('"' :: inside ++ ['"'])) span :: ps) := by
  have word := mem_words_quoted free solid blank shape closes
  have bare : inner ('"' :: inside ++ ['"']) = Text.trim inside := by
    have ends : ∀ c ∈ ['"'], Text.isQuote c = true := by simp [Text.isQuote]
    exact congrArg Text.trim (Text.stripped_around ends free ends)
  have filled : inner ('"' :: inside ++ ['"']) ≠ [] := by
    intro empty
    rw [← Text.words_trim, ← bare, empty] at word
    cases word
  by_cases all : name = everyField
  · right
    refine ⟨' ' :: '"' :: front, b, back ++ '"' :: ' ' :: ps.flatMap leftoverOf, ?_, blank, ?_⟩
    · rw [List.flatMap_cons, leftoverOf, if_pos ⟨all, filled⟩]
      simp [shape]
    · exact Text.closes_append closes fun _ => .quote (.separator Text.space_blank)
  · left
    have made : scopeOf (.scope name ('"' :: inside ++ ['"'])) = some ⟨name, Text.trim inside⟩ := by
      rw [scopeOf, if_neg fun either => either.elim all filled, bare]
    refine ⟨⟨name, Text.trim inside⟩, ?_, ?_⟩
    · exact List.mem_filterMap.mpr ⟨_, List.mem_filterMap.mpr ⟨_, List.mem_cons_self, rfl⟩, made⟩
    · rw [← Text.words_trim, ← List.append_nil k] at word
      exact mem_keywords solid (by simp) word

theorem kept_of_reads (names : ∀ n ∈ known, Plain n) (solid : Solid k)
    (closes : Text.Closes Text.isBlank e) (reads : Reads known u r ps) {before : Text} {b : Char}
    (blank : Text.isBlank b = true) (shape : r = before ++ b :: (k ++ e)) : Kept k ps := by
  induction reads generalizing before with
  | done u => simp at shape
  | @loose u r c ps _ _ _ rest ih =>
    cases before with
    | nil =>
      obtain ⟨rfl, rfl⟩ := List.cons.inj shape
      obtain ⟨qs, rfl, later⟩ := reads_word names solid.2 closes rest
      refine .inr ⟨[], c, qs.flatMap leftoverOf, ?_, blank, closes_leftover later (by simp) closes⟩
      simp [leftoverOf, List.flatMap_map]
    | cons d more =>
      obtain ⟨rfl, split⟩ := List.cons.inj shape
      exact kept_cons _ (ih split)
  | @quotation u inside r ps free rest ih =>
    rcases word_of_quotation solid blank shape with ⟨more, rfl, split⟩ | ⟨front, back, rfl, rfl, rfl⟩
    · exact kept_cons _ (ih split)
    · refine .inr ⟨'"' :: front, b, back ++ '"' :: ps.flatMap leftoverOf, ?_, blank, ?_⟩
      · simp [leftoverOf]
      · apply Text.closes_append closes
        intro closing
        rcases Text.closes_cons.mp closing with ends | ⟨_, later⟩
        · rw [Text.quote_solid '"' (by simp)] at ends
          cases ends
        · exact .quote (closes_leftover rest (by simp) later)
  | @scope u lead name raw r ps opens named value rest ih =>
    have plain := plain_of_mem names (nameAt_eq_some.mp named).1
    -- the word cannot be the name, which a colon follows
    obtain ⟨more, _, split⟩ := word_of_scope opens plain solid closes blank shape
    have shapes := rawValue_shape (raw ++ r)
    rw [value] at shapes
    rcases shapes with ⟨inside, free, rfl⟩ | whole
    · rcases word_of_quotation solid blank split with ⟨_, _, later⟩ | ⟨front, back, rfl, same, rfl⟩
      · exact kept_cons _ (ih later)
      · exact kept_of_value solid free blank same closes
    · rcases List.append_eq_append_iff.mp split with ⟨x, _, later⟩ | ⟨x, rfl, later⟩
      · exact kept_cons _ (ih later)
      · cases x with
        | nil =>
          have here : r = [] ++ b :: (k ++ e) := by simpa using later.symm
          exact kept_cons _ (ih here)
        | cons c rest =>
          have inside := (whole c (by simp)).1
          rw [← (List.cons.inj later).1, blank] at inside
          cases inside

/-- A word of a text is a word of the value of a scope, or a word of what is left. -/
theorem word_of_split (names : ∀ n ∈ known, Plain n) (solid : Solid k) {quotes t : Text}
    (all : ∀ c ∈ quotes, Text.isQuote c = true) (word : k ++ quotes ∈ Text.words t) :
    (∃ scope ∈ (split known t).scopes, k ∈ Text.keywords scope.value) ∨
      ∃ quotes, (∀ c ∈ quotes, Text.isQuote c = true) ∧
        k ++ quotes ∈ Text.words (split known t).leftover := by
  obtain ⟨_, _, before, after, shape, left, right⟩ := Text.mem_parted.mp word
  have closes := Text.closes_quotes all (Text.closes_of_head right)
  have reads := reads_behind known [] t
  have leftover : Text.words (split known t).leftover =
      Text.words ((Scan.pieces (find known) t).flatMap leftoverOf) := Text.words_collapse _
  have unblank : ∀ c ∈ k, Text.isBlank c = false := fun c member => (solid.2 c member).1
  have quote : Text.isBlank '"' = false := Text.quote_solid '"' (by simp)
  rw [leftover, Text.words_eq_parted]
  rw [List.append_assoc, List.append_assoc] at shape
  rcases List.eq_nil_or_concat' before with rfl | ⟨init, b, rfl⟩
  · rw [List.nil_append] at shape
    rw [shape] at reads
    obtain ⟨qs, same, later⟩ := reads_word names solid.2 closes reads
    have pieces : (Scan.pieces (find known) t).flatMap leftoverOf = k ++ qs.flatMap leftoverOf := by
      rw [shape, Scan.pieces]
      exact (congrArg _ same).trans (by simp [leftoverOf, List.flatMap_map])
    rw [pieces]
    rw [← List.nil_append (k ++ _)]
    exact .inr (Text.mem_parted_of_closes solid.1 unblank quote (by simp)
      (closes_leftover later (by simp [solid.1]) closes))
  · have blank : Text.isBlank b = true := left b (by simp)
    rw [List.append_assoc, List.singleton_append] at shape
    have kept := kept_of_reads names solid closes reads blank shape
    rcases kept with scope | ⟨front, c, back, same, blank, closing⟩
    · exact .inl scope
    · have pieces : (Scan.pieces (find known) t).flatMap leftoverOf =
          (front ++ [c]) ++ (k ++ back) := same.trans (by simp)
      rw [pieces]
      exact .inr (Text.mem_parted_of_closes solid.1 unblank quote (by simpa using blank) closing)

end Word

end Scope

end CardCatalog
