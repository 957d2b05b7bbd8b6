import Mathlib.Data.List.Induction
import CardCatalog.Proofs.Query.Clean

/-!
The form of every compiled plan, whatever the query was. Each group is a run of scopes
with at most one clause of free text behind them, which is one leaf or phrases with at
most one fuzzy leaf behind them. What a leaf holds was cut out of the query in one of
three ways, and each way leaves its marks on the text: no quotes in a value or a phrase,
no reference number and no second quote in the words that remain.
-/

namespace CardCatalog

theorem Text.number_lt {t : Text} (digits : ∀ c ∈ t, isDigit c = true) :
    number t < 10 ^ t.length := by
  induction t using List.reverseRecOn with
  | nil => decide
  | append_singleton t c ih =>
    have front := ih fun d member => digits d (by simp [member])
    have last : digitValue c ≤ 9 := by
      have digit := digits c (by simp)
      simp only [isDigit, Bool.and_eq_true, decide_eq_true_eq] at digit
      exact Nat.sub_le_sub_right (Char.le_def.mp digit.2) 48
    rw [number, List.foldl_append, List.length_append, List.length_singleton, Nat.pow_succ]
    change 10 * number t + digitValue c < _
    omega

namespace Leaf

/-- What a leaf of a compiled query can be. -/
inductive WellFormed (fields : SearchFields) : Leaf → Prop where
  | field {name value : Text} (listed : name ∈ fields.scopable) (named : name ≠ [])
      (other : name ≠ Scope.everyField) (filled : value ≠ []) (trimmed : Text.trim value = value)
      (unquoted : Scope.Unquoted value) : WellFormed fields (.field name value)
  | phrase {text : Text} (filled : text ≠ []) (trimmed : Text.trim text = text)
      (unquoted : Scope.Unquoted text) : WellFormed fields (.phrase text fields.weighted)
  | fuzzy {text : Text} (single : Text.collapse text = text)
      (lettered : ∃ c ∈ text, Text.isAlphanumeric c = true) (quotes : text.countP Text.isQuote ≤ 1)
      (numberless : ∀ a b, Text.isDigit a = true → Text.isDigit b = true → ¬ [a, '-', b] <:+: text) :
      WellFormed fields (.fuzzy text fields.weighted)

end Leaf

inductive Clause.FreeText (weighted : List WeightedField) : Clause → Prop where
  | phrase (text : Text) : FreeText weighted (.one (.phrase text weighted))
  | fuzzy (text : Text) : FreeText weighted (.one (.fuzzy text weighted))
  | all {phrases : List Text} {words : Option Text} (phrased : phrases ≠ [])
      (several : 2 ≤ phrases.length + words.toList.length) :
      FreeText weighted
        (.all (phrases.map (.phrase · weighted) ++ words.toList.map (.fuzzy · weighted)))

/-- Scopes, and behind them one clause of free text at most. -/
def Group.WellFormed (weighted : List WeightedField) (g : Group) : Prop :=
  ∃ (scopes : List FieldScope) (text : Option Clause),
    g = scopes.map (fun scope => .one (.field scope.field scope.value)) ++ text.toList ∧
      ∀ c ∈ text, c.FreeText weighted

structure Plan.WellFormed (fields : SearchFields) (plan : Plan) : Prop where
  asks : plan.groups ≠ []
  groups : ∀ g ∈ plan.groups, g ≠ [] ∧ Group.WellFormed fields.weighted g
  leaves : ∀ leaf ∈ plan.leaves, leaf.WellFormed fields ∧ Query.Clean leaf.text
  years : ∀ range ∈ plan.years, range.first ≤ 9999 ∧ range.last ≤ 9999

namespace Scope

variable {known : List Text} {t raw r : Text} {scope : FieldScope}

theorem inner_unquoted (value : rawValue (raw ++ r) = raw) : Unquoted (inner raw) := by
  have shown := inner_rawValue (raw ++ r)
  rw [value] at shown
  intro c member
  rw [shown] at member
  simpa using (List.mem_filter.mp ((Text.trim_within _).subset member)).2

theorem wellFormed_of_readAt {fields : SearchFields} (found : ReadAt fields.scopable t scope raw r) :
    Leaf.WellFormed fields (.field scope.field scope.value) := by
  obtain ⟨among, fit, _⟩ := nameAt_eq_some.mp found.named
  have listed := (List.mem_cons.mp among).resolve_left found.other
  refine .field listed (fits_iff.mp fit).1 found.other found.filled ?_ ?_
  · rw [found.value, inner, Text.trim_trim]
  · exact found.value ▸ inner_unquoted found.valued

end Scope

namespace Phrase

open Query (gap)
open Scope (Unquoted)

variable {t : Text} {ps : List (Piece Text)}

theorem phrase_of_reads (reads : Reads t ps) {v : Text} (member : v ∈ Scan.values ps) :
    v <:+: t ∧ Text.trim v = v ∧ Unquoted v := by
  induction reads with
  | done => cases member
  | loose _ _ _ ih =>
    obtain ⟨inside, form⟩ := ih member
    exact ⟨List.infix_cons inside, form⟩
  | @quotation inside r ps free _ ih =>
    rcases List.mem_cons.mp member with rfl | later
    · refine ⟨(Text.trim_within inside).trans ⟨['"'], '"' :: r, by simp⟩, Text.trim_trim inside, ?_⟩
      exact fun c among => free c ((Text.trim_within inside).subset among)
    · obtain ⟨within, form⟩ := ih later
      exact ⟨within.trans (List.suffix_append _ _).isInfix, form⟩
  | @number n r ps read _ ih =>
    rcases List.mem_cons.mp member with rfl | later
    · have numeral := (Query.reference_numeral (Query.reference_eq_some.mp read).1).2
      refine ⟨(List.prefix_append _ r).isInfix, Text.stripped_self fun c among => ?_,
        unquoted_of_read read⟩
      exact (Query.numeral_solid (numeral c among)).1
    · obtain ⟨within, form⟩ := ih later
      exact ⟨within.trans (List.suffix_append _ _).isInfix, form⟩

theorem gapped_gap (t : Text) : Text.Gapped t ((Scan.pieces find t).flatMap gap) := by
  have gapped := Scan.gapped_pieces (g := gap) (fun _ => rfl) (fun _ _ => rfl) (Scan.pieces find t)
  rwa [Scan.raw_pieces] at gapped

theorem quotes_of_reads (reads : Reads t ps) : (ps.flatMap gap).countP Text.isQuote ≤ 1 := by
  have space : Text.isQuote ' ' = false := Scope.not_quote_of_blank Text.space_blank
  induction reads with
  | done => simp
  | @loose r c ps unquoted _ rest ih =>
    rw [List.flatMap_cons, gap, List.singleton_append, List.countP_cons]
    rcases unquoted with other | free
    · simpa [other] using ih
    -- this may be a quote, but then it is the last one
    · have gapped := gapped_gap r
      rw [pieces_of_reads rest] at gapped
      have none : Unquoted (ps.flatMap gap) := by
        intro d member
        rcases gapped.mem member with rfl | inside
        · exact space
        · exact free d inside
      rw [Scope.countP_unquoted none]
      split <;> omega
  | quotation _ _ ih => simpa [gap, List.countP_cons, space] using ih
  | number _ _ ih => simpa [gap, List.countP_cons, space] using ih

theorem numberless_gap {a b : Char} (first : Text.isDigit a = true) (second : Text.isDigit b = true)
    (t : Text) : ¬ [a, '-', b] <:+: (Scan.pieces find t).flatMap gap := by
  have one {c : Char} (digit : Text.isDigit c = true) : Query.Digits [c] :=
    ⟨by simp, by simpa using digit⟩
  have reference : Query.Reference [a, '-', b] := .two (one first) (one second)
  have solid := Query.space_not_numeral (Query.reference_numeral reference).2
  refine Scan.not_left (fun _ => rfl) (fun _ _ => rfl) (by simp) solid (fun before r => ?_) t
  -- the number may run on into `r`, all that counts is that it begins here
  obtain ⟨n, read, longer⟩ := Query.read_of_reference reference (List.prefix_append _ r)
  obtain ⟨_, ⟨behind, split⟩, _⟩ := Query.reference_eq_some.mp read
  have found := find_number (split ▸ read) before
  rw [split] at found
  exact ⟨n, n.length - 1, by rw [found, Nat.sub_add_cancel (Nat.le_trans (by simp) longer)]⟩

theorem single_loose (t : Text) : Text.collapse (loose t) = loose t := Text.collapse_collapse _

theorem wellFormed_of_leaves {fields : SearchFields} {leaf : Leaf}
    (member : leaf ∈ leaves fields.weighted t) : leaf.WellFormed fields := by
  rcases mem_leaves.mp member with ⟨v, among, filled, rfl⟩ | ⟨lettered, rfl⟩
  · obtain ⟨_, trimmed, unquoted⟩ := phrase_of_reads (reads_pieces t) among
    exact .phrase filled trimmed unquoted
  · refine .fuzzy (single_loose t) (List.any_eq_true.mp lettered) ?_ fun a b first second => ?_
    · rw [leftover_eq, Scope.quotes_collapse]
      exact quotes_of_reads (reads_pieces t)
    · intro inside
      rw [leftover_eq, ← Text.squeeze_trim] at inside
      have solid : ' ' ∉ [a, '-', b] := by
        simp only [List.mem_cons, List.not_mem_nil, or_false, not_or]
        refine ⟨?_, by decide, ?_⟩
        · rintro rfl
          cases first
        · rintro rfl
          cases second
      -- what is collapsed puts no digits together either
      have apart := (Text.gapped_squeeze _).within solid (by simp) inside
      exact numberless_gap first second t (apart.trans (Text.trim_within _))

theorem clean_of_leaves {weighted : List WeightedField} {leaf : Leaf} (clean : Query.Clean t)
    (member : leaf ∈ leaves weighted t) : Query.Clean leaf.text := by
  rcases mem_leaves.mp member with ⟨v, among, _, rfl⟩ | ⟨_, rfl⟩
  · exact clean.within (phrase_of_reads (reads_pieces t) among).1
  · exact (clean.gapped (gapped_gap t)).collapse

theorem freeText_of_compile {weighted : List WeightedField} {c : Clause}
    (made : compile weighted t = some c) : c.FreeText weighted := by
  let words : Option Text := if (loose t).any Text.isAlphanumeric then some (loose t) else none
  let phrases := (phrases t).filter (!·.isEmpty)
  have shape : leaves weighted t = phrases.map (.phrase · weighted) ++
      words.toList.map (.fuzzy · weighted) := by
    rw [leaves_eq]
    by_cases lettered : (loose t).any Text.isAlphanumeric = true <;> simp [words, phrases, lettered]
  rw [compile, shape] at made
  -- how many leaves there are decides on the clause, not what they say
  generalize phrases = vs at made
  generalize words = w at made
  rcases vs with _ | ⟨v, _ | ⟨u, more⟩⟩
  · cases w with
    | none => cases made
    | some text =>
      cases made
      exact .fuzzy text
  · cases w with
    | none =>
      cases made
      exact .phrase v
    | some text =>
      cases made
      exact @Clause.FreeText.all weighted [v] (some text) (by simp) (by simp)
  · cases made
    exact @Clause.FreeText.all weighted (v :: u :: more) w (by simp) (by simp; omega)

end Phrase

namespace Query

variable {fields : SearchFields} {q s : Text} {compiled : Compiled}

theorem group_wellFormed (fields : SearchFields) (s : Text) :
    Group.WellFormed fields.weighted (group fields s) :=
  ⟨_, _, rfl, fun _ made => Phrase.freeText_of_compile made⟩

theorem leaves_of_group (clean : Clean s) {leaf : Leaf}
    (member : leaf ∈ (group fields s).flatMap Clause.leaves) :
    leaf.WellFormed fields ∧ Clean leaf.text := by
  rw [group_leaves] at member
  rcases List.mem_append.mp member with scopes | free
  · obtain ⟨scope, listed, rfl⟩ := List.mem_map.mp scopes
    rw [parts] at listed
    split at listed
    · obtain ⟨raw, r, found⟩ := Scope.readAt_of_reads (Scope.reads_pieces _ s) listed
      exact ⟨Scope.wellFormed_of_readAt found, clean.within found.value_within⟩
    · cases listed
  · refine ⟨Phrase.wellFormed_of_leaves free, Phrase.clean_of_leaves ?_ free⟩
    rw [parts]
    split
    · exact Scope.clean_leftover clean
    · exact clean

theorem years_extract {range : YearRange} (found : (YearRange.extract q).1 = some range) :
    range.first ≤ 9999 ∧ range.last ≤ 9999 := by
  rw [YearRange.years_eq] at found
  obtain ⟨piece, listed, same⟩ := List.mem_filterMap.mp (List.mem_of_mem_head? found)
  cases piece with
  | loose c => cases same
  | token other raw =>
    cases same
    obtain ⟨_, u, n, token, _⟩ := Scan.found_of_token 0 none q listed
    obtain ⟨_, head, same⟩ := Option.map_eq_some_iff.mp token
    cases same
    obtain ⟨first, last, four, four', ⟨r, rfl⟩⟩ := years_of_atHead head
    rw [atHead_years four four'] at head
    cases head
    have low {t : Text} (four : FourDigits t) : Text.number t ≤ 9999 := by
      have below := Text.number_lt four.2
      rw [four.1] at below
      omega
    exact ⟨low four, low four'⟩

/-- Every compiled plan is well-formed. -/
theorem wellFormed_of_compile (made : compile fields q = some compiled) :
    compiled.plan.WellFormed fields where
  asks := (groups_ne_nil made).1
  groups := fun g member => by
    refine ⟨((groups_ne_nil made).2 g member).1, ?_⟩
    rw [(compile_groups made).1] at member
    obtain ⟨s, _, rfl⟩ := List.mem_map.mp (List.mem_filter.mp member).1
    exact group_wellFormed fields s
  leaves := fun leaf member => by
    rw [leaves_of_compile made] at member
    obtain ⟨s, listed, asked⟩ := List.mem_flatMap.mp member
    exact leaves_of_group (clean_segment listed) asked
  years := fun range found => by
    rw [years_of_compile rfl made] at found
    exact years_extract found

-- A quotation in a scope and one beside it, a number, a quote that nothing closes, a year range
-- with half of another behind it, and a segment without letters.
def crowdedText : Text :=
  "naam:\"jan de\" \"de  smit\"123-45 akte\" 1500-1510-1520 & -".toList

def nameFields : SearchFields := ⟨["naam".toList], [⟨"naam".toList, 1⟩]⟩

theorem wellFormed_of_compile_crowded :
    ∃ compiled, compile nameFields crowdedText = some compiled ∧
      compiled.plan.WellFormed nameFields ∧
      compiled.plan.leaves.map Leaf.text =
        ["jan de", "de smit", "123-45", "akte\" -1520"].map String.toList ∧
      compiled.plan.years = some ⟨1500, 1510⟩ := by
  have asked : (compile nameFields crowdedText).map
      (fun compiled => (compiled.plan.leaves.map Leaf.text, compiled.plan.years)) =
        some (["jan de", "de smit", "123-45", "akte\" -1520"].map String.toList,
          some ⟨1500, 1510⟩) := by
    decide +kernel
  obtain ⟨compiled, made, same⟩ := Option.map_eq_some_iff.mp asked
  obtain ⟨texts, years⟩ := Prod.mk.inj same
  exact ⟨compiled, made, wellFormed_of_compile made, texts, years⟩

end Query

end CardCatalog
