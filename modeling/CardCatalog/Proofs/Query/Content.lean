import Mathlib.Algebra.Order.Group.Multiset
import CardCatalog.Proofs.Query.Keyword
import CardCatalog.Proofs.Query.PhraseSpacing

/-!
Letters and numbers of a query, counted through all of its reading. Every stage cuts
the text and puts it together anew; what it takes out is a year range or the name of a
scope, and everything else is in the text of some leaf. So a query that asks for
nothing says nothing besides.
-/

namespace CardCatalog

namespace Text

/-- The letters and numbers of a text, in no order. -/
def content (t : Text) : Multiset Char := (t.filter isAlphanumeric : List Char)

section Content

variable {s t : Text} {c : Char}

theorem content_nil : content [] = 0 := rfl

theorem content_append (s t : Text) : content (s ++ t) = content s + content t := by
  rw [content, List.filter_append, ← Multiset.coe_add]
  rfl

theorem content_of_none (none : ∀ c ∈ t, isAlphanumeric c = false) : content t = 0 := by
  have empty : t.filter isAlphanumeric = [] := by simpa [List.filter_eq_nil_iff] using none
  rw [content, empty]
  rfl

theorem content_cons (other : isAlphanumeric c = false) (t : Text) :
    content (c :: t) = content t := by
  rw [content, List.filter_cons_of_neg (by simp [other])]
  rfl

theorem content_concat (other : isAlphanumeric c = false) (t : Text) :
    content (t ++ [c]) = content t := by
  rw [content_append, content_cons other, content_nil, add_zero]

theorem content_filter {keep : Char → Bool}
    (lost : ∀ c, keep c = false → isAlphanumeric c = false) (t : Text) :
    content (t.filter keep) = content t := by
  have both : ∀ c, (isAlphanumeric c && keep c) = isAlphanumeric c := by
    intro c
    cases kept : keep c with
    | true => rw [Bool.and_true]
    | false => rw [lost c kept, Bool.false_and]
  simp only [content, List.filter_filter, both]

theorem content_stripped {p : Char → Bool} (lost : ∀ c, p c = true → isAlphanumeric c = false)
    (t : Text) : content (stripped p t) = content t := by
  obtain ⟨before, after, split, starts, ends⟩ := stripped_split p t
  have front := content_of_none fun c inside => lost c (starts c inside)
  have back := content_of_none fun c inside => lost c (ends c inside)
  calc content (stripped p t)
      = content before + content (stripped p t) + content after := by
        rw [front, back, zero_add, add_zero]
    _ = content t := by rw [← content_append, ← content_append, ← split]

theorem content_trim (t : Text) : content (trim t) = content t :=
  content_stripped (fun _ blank => isAlphanumeric_of_blank blank) t

theorem content_collapse (t : Text) : content (collapse t) = content t := by
  have solid : ∀ c, (!isBlank c) = false → isAlphanumeric c = false := by
    intro c blank
    exact isAlphanumeric_of_blank (by simpa using blank)
  rw [← content_filter solid, filter_collapse, content_filter solid]

theorem not_alphanumeric_of_quote (quote : isQuote c = true) : isAlphanumeric c = false := by
  rw [Scope.isQuote_iff.mp quote]
  decide +kernel

theorem content_flatMap_add {α : Type} {f g h : α → Text} {xs : List α}
    (each : ∀ x ∈ xs, content (f x) = content (g x) + content (h x)) :
    content (xs.flatMap f) = content (xs.flatMap g) + content (xs.flatMap h) := by
  induction xs with
  | nil => rfl
  | cons x xs ih =>
    have tail := ih fun y member => each y (List.mem_cons_of_mem x member)
    simp only [List.flatMap_cons, content_append, each x List.mem_cons_self, tail]
    ac_rfl

theorem content_flatMap_congr {α : Type} {f g : α → Text} {xs : List α}
    (each : ∀ x ∈ xs, content (f x) = content (g x)) :
    content (xs.flatMap f) = content (xs.flatMap g) := by
  have both := @content_flatMap_add _ f g (fun _ => []) xs fun x member => by
    rw [each x member, content_nil, add_zero]
  have nothing : xs.flatMap (fun _ => ([] : Text)) = [] := by simp
  rw [both, nothing, content_nil, add_zero]

end Content

end Text

open Text (content content_append content_flatMap_add content_flatMap_congr)

def Piece.taken? {α : Type} : Piece α → Option Text
  | .loose _ => none
  | .token _ raw => some raw

namespace YearRange

/-- The texts that are taken out of a query for year ranges. -/
def taken (q : Text) : List Text := (Scan.pieces find q).filterMap Piece.taken?

theorem taken_eq_nil {q : Text} (none : Scan.values (Scan.pieces find q) = []) : taken q = [] := by
  apply List.filterMap_eq_nil_iff.mpr
  intro piece member
  have absent := List.filterMap_eq_nil_iff.mp none piece member
  cases piece with
  | loose c => rfl
  | token range raw => cases absent

theorem years_of_taken {q raw : Text} (member : raw ∈ taken q) :
    ∃ first last, Query.FourDigits first ∧ Query.FourDigits last ∧ raw = first ++ '-' :: last := by
  obtain ⟨piece, listed, same⟩ := List.mem_filterMap.mp member
  cases piece with
  | loose c => cases same
  | token range text =>
    cases same
    obtain ⟨before, u, n, found, rfl⟩ := Scan.found_of_token 0 none q listed
    obtain ⟨_, head, same⟩ := Option.map_eq_some_iff.mp found
    cases same
    obtain ⟨first, last, four, other, start⟩ := Query.years_of_atHead head
    have nine : (first ++ '-' :: last).length = 9 := by simp [four.1, other.1]
    exact ⟨first, last, four, other, (nine ▸ List.prefix_iff_eq_take.mp start).symm⟩

theorem content_blanked (ps : List (Piece YearRange)) :
    content (ps.flatMap Piece.raw) =
      content (blanked ps) + content (ps.filterMap Piece.taken?).flatten := by
  induction ps with
  | nil => rfl
  | cons piece ps ih =>
    have cut : blanked (piece :: ps) = blanked [piece] ++ blanked ps := by simp [blanked]
    rw [List.flatMap_cons, cut, content_append, content_append, ih]
    cases piece with
    | loose c => rw [List.filterMap_cons, Piece.taken?, add_assoc]; rfl
    | token range raw =>
      have space : content (blanked [.token range raw]) = 0 := Text.content_of_none (by
        simpa [blanked] using Text.isAlphanumeric_of_blank Text.space_blank)
      rw [List.filterMap_cons, Piece.taken?, List.flatten_cons, content_append, space, Piece.raw]
      ac_rfl

theorem content_extract (q : Text) :
    content q = content (extract q).2 + content (taken q).flatten := by
  have whole := content_blanked (Scan.pieces find q)
  rw [Scan.raw_pieces] at whole
  rw [extract]
  split
  · rename_i none
    rw [taken_eq_nil none, List.flatten_nil, Text.content_nil, add_zero]
  · rw [Text.content_collapse]
    exact whole

end YearRange

namespace Scope

theorem values_token (mark : Mark) (raw : Text) (ps : List (Piece Mark)) :
    (Scan.values (.token mark raw :: ps)).filterMap scopeOf =
      (scopeOf mark).toList ++ (Scan.values ps).filterMap scopeOf := by
  rw [Scan.values, List.filterMap_cons, Piece.value?, List.filterMap_cons]
  cases scopeOf mark <;> rfl

theorem content_value (name raw span : Text) :
    content raw = content ((scopeOf (.scope name raw)).toList.flatMap (·.value)) +
      content (leftoverOf (.token (.scope name raw) span)) := by
  have blank : Text.isAlphanumeric ' ' = false := Text.isAlphanumeric_of_blank Text.space_blank
  have space : content [' '] = 0 := Text.content_cons blank []
  have inside : content (inner raw) = content raw := by
    rw [inner, Text.content_trim, Text.content_stripped fun _ => Text.not_alphanumeric_of_quote]
  rw [scopeOf, leftoverOf]
  by_cases empty : inner raw = []
  · rw [if_pos (.inr empty), if_neg fun both => both.2 empty, ← inside, empty, space]
    rfl
  · by_cases all : name = everyField
    · rw [if_pos (.inl all), if_pos ⟨all, empty⟩, List.cons_append, Text.content_cons blank,
        Text.content_concat blank]
      simp [Text.content_nil]
    · rw [if_neg fun either => either.elim all empty, if_neg fun both => all both.1, space]
      simp [inside]

theorem content_reads {known : List Text} {u r : Text} {ps : List (Piece Mark)}
    (reads : Reads known u r ps) :
    content r = content (((Scan.values ps).filterMap scopeOf).flatMap (·.value)) +
        content (ps.flatMap leftoverOf) +
      content ((markersOf u.length ps).flatMap (·.name)) := by
  induction reads with
  | done u => rfl
  | @loose u r c ps _ _ _ rest ih =>
    have values : Scan.values (.loose c :: ps) = Scan.values ps := rfl
    rw [markersOf_loose, values, List.flatMap_cons, leftoverOf, ← List.singleton_append,
      content_append, content_append, ih]
    ac_rfl
  | @quotation u inside r ps _ rest ih =>
    rw [markersOf_quotation, values_token, scopeOf, List.flatMap_cons, leftoverOf, content_append,
      content_append ('"' :: inside ++ ['"']), ih, Option.toList_none, List.nil_append]
    ac_rfl
  | @scope u lead name raw r ps opens _ value rest ih =>
    have none : content lead = 0 := by
      cases opens with
      | start => rfl
      | blank isOne => exact Text.content_of_none (by simpa using Text.isAlphanumeric_of_blank isOne)
    have colon : Text.isAlphanumeric ':' = false := by decide +kernel
    have goes := content_value name raw (lead ++ (name ++ ':' :: raw))
    rw [markersOf_scope, values_token, List.flatMap_append, List.flatMap_cons, List.flatMap_cons]
    simp only [content_append, none, zero_add, Text.content_cons colon, ih]
    rw [goes]
    ac_rfl

theorem content_split (known : List Text) (t : Text) :
    content t = content ((split known t).scopes.flatMap (·.value)) +
        content (split known t).leftover +
      content ((markers known t).flatMap (·.name)) := by
  have all := content_reads (reads_behind known [] t)
  rw [split, Text.content_collapse]
  exact all

end Scope

namespace Phrase

theorem content_reads {t : Text} {ps : List (Piece Text)} (reads : Reads t ps) :
    content t = content (Scan.values ps).flatten + content (ps.flatMap Query.gap) := by
  have space : Text.isAlphanumeric ' ' = false := Text.isAlphanumeric_of_blank Text.space_blank
  induction reads with
  | done => rfl
  | @loose r c ps _ _ _ ih =>
    have values : Scan.values (.loose c :: ps) = Scan.values ps := rfl
    rw [values, List.flatMap_cons, Query.gap, ← List.singleton_append, content_append,
      content_append, ih]
    ac_rfl
  | @quotation inside r ps _ _ ih =>
    have quote : Text.isAlphanumeric '"' = false := Text.not_alphanumeric_of_quote (by decide)
    have values : Scan.values (.token (Text.trim inside) ('"' :: inside ++ ['"']) :: ps) =
        Text.trim inside :: Scan.values ps := rfl
    rw [values, List.flatten_cons, List.flatMap_cons, Query.gap, List.singleton_append,
      Text.content_cons space, content_append, Text.content_concat quote, Text.content_cons quote,
      content_append, Text.content_trim, ih]
    ac_rfl
  | @number n r ps _ _ ih =>
    have values : Scan.values (.token n n :: ps) = n :: Scan.values ps := rfl
    rw [values, List.flatten_cons, List.flatMap_cons, Query.gap, List.singleton_append,
      Text.content_cons space, content_append, content_append, ih]
    ac_rfl

/-- Free text is kept in its leaves: what is dropped says nothing. -/
theorem content_leaves (fields : List WeightedField) (t : Text) :
    content ((leaves fields t).flatMap Leaf.text) = content t := by
  have values : (((phrases t).filter (!·.isEmpty)).map (Leaf.phrase · fields)).flatMap Leaf.text =
      (phrases t).flatten := by
    rw [List.flatMap_map, ← @List.flatten_filter_not_isEmpty _ (phrases t), ← List.flatMap_id']
    rfl
  have whole : content t = content (phrases t).flatten + content (loose t) := by
    rw [loose, leftover_eq, Text.content_collapse]
    exact content_reads (reads_pieces t)
  rw [leaves_eq, List.flatMap_append, content_append, values, whole]
  by_cases lettered : (loose t).any Text.isAlphanumeric = true
  · rw [if_pos lettered, List.flatMap_singleton]
    rfl
  · have none : content (loose t) = 0 := Text.content_of_none (by simpa using lettered)
    rw [if_neg lettered, none]
    rfl

end Phrase

namespace Query

variable {fields : SearchFields} {q segment : Text}

/-- The names of the scopes that are read in a segment, `alles` and those without a
value with them. -/
def named (fields : SearchFields) (segment : Text) : Text :=
  (Scope.markers fields.scopable segment).flatMap (·.name)

theorem content_group (fields : SearchFields) (segment : Text) :
    content segment = content (((group fields segment).flatMap Clause.leaves).flatMap Leaf.text) +
      content (named fields segment) := by
  have values (scopes : List FieldScope) :
      (scopes.map fun scope => Leaf.field scope.field scope.value).flatMap Leaf.text =
        scopes.flatMap (·.value) := by
    rw [List.flatMap_map]
    rfl
  rw [group_leaves, List.flatMap_append, values, content_append, Phrase.content_leaves, parts, named]
  split
  · exact Scope.content_split fields.scopable segment
  · rename_i colonless
    rw [Scope.markers_colonless (by simpa using colonless)]
    exact (add_zero _).symm.trans (congrArg (· + _) (zero_add _).symm)

theorem content_segments (t : Text) : content (segments t).flatten = content t := by
  have sign : ∀ c, (!isAnd c) = false → Text.isAlphanumeric c = false := by
    intro c same
    have sign : c = '&' := by simpa [isAnd] using same
    rw [sign]
    decide +kernel
  have trimmed : content ((Text.splitOn isAnd t).flatMap Text.trim) =
      content ((Text.splitOn isAnd t).flatMap id) :=
    content_flatMap_congr fun piece _ => Text.content_trim piece
  rw [segments, List.flatten_filter_not_isEmpty, ← List.flatMap_def, trimmed, List.flatMap_id,
    Text.flatten_splitOn, Text.content_filter sign]

/-- The leaves of a query, of which there are none when it asks for nothing. -/
def asked (fields : SearchFields) (q : Text) : List Leaf :=
  (compile fields q).elim [] (·.plan.leaves)

theorem asked_eq (fields : SearchFields) (q : Text) :
    asked fields q = (segments (YearRange.extract q).2).flatMap fun segment =>
      (group fields segment).flatMap Clause.leaves := by
  cases made : compile fields q with
  | none =>
    have empty := compile_eq_none.mp made
    have none : (segments (YearRange.extract q).2).flatMap (fun segment =>
        (group fields segment).flatMap Clause.leaves) = [] := by
      apply List.flatMap_eq_nil_iff.mpr
      intro segment listed
      rw [empty segment listed]
      rfl
    rw [asked, made, none]
    rfl
  | some compiled =>
    rw [asked, made, ← leaves_of_compile made]
    rfl

/-- Every letter and every number of a query is in a leaf, in the name of a scope or in
a range of years, and in one of them only. A part between two `&` that gives no group,
and so a query that asks for nothing, has them in names and ranges alone. -/
theorem content_kept (fields : SearchFields) (q : Text) :
    content q = content ((asked fields q).flatMap Leaf.text) +
        content ((segments (YearRange.extract q).2).flatMap (named fields)) +
        content (YearRange.taken q).flatten ∧
      (∀ raw ∈ YearRange.taken q,
        ∃ first last, FourDigits first ∧ FourDigits last ∧ raw = first ++ '-' :: last) ∧
      (∀ part ∈ Text.splitOn isAnd (YearRange.extract q).2, group fields (Text.trim part) = [] →
        content part = content (named fields (Text.trim part))) ∧
      (compile fields q = none →
        content q = content ((segments (YearRange.extract q).2).flatMap (named fields)) +
          content (YearRange.taken q).flatten) := by
  have whole : content q = content ((asked fields q).flatMap Leaf.text) +
      content ((segments (YearRange.extract q).2).flatMap (named fields)) +
      content (YearRange.taken q).flatten := by
    rw [YearRange.content_extract q, ← content_segments, asked_eq, List.flatMap_assoc,
      ← content_flatMap_add fun segment _ => content_group fields segment, List.flatMap_id']
  refine ⟨whole, fun _ => YearRange.years_of_taken, fun part _ dropped => ?_, fun nothing => ?_⟩
  · have all := content_group fields (Text.trim part)
    rw [dropped, Text.content_trim] at all
    rw [all]
    exact zero_add _
  · rw [whole, asked, nothing]
    exact congrArg (· + _) (zero_add _)

/-- The second part has a scope without a value, and the second query nothing else. -/
theorem content_kept_smith :
    content "naam:jan \"de smit\" 1500-1510 & naam:".toList =
        content "jande smit".toList + content "naamnaam".toList + content "1500-1510".toList ∧
      (∃ first last, FourDigits first ∧ FourDigits last ∧
        "1500-1510".toList = first ++ '-' :: last) ∧
      content " naam:".toList = content "naam".toList ∧
      content "alles: 1500-1510".toList = content "alles".toList + content "1500-1510".toList := by
  obtain ⟨whole, years, dropped, _⟩ :=
    content_kept ⟨["naam".toList], []⟩ "naam:jan \"de smit\" 1500-1510 & naam:".toList
  obtain ⟨_, _, _, nothing⟩ := content_kept ⟨["naam".toList], []⟩ "alles: 1500-1510".toList
  have asks : (asked ⟨["naam".toList], []⟩
      "naam:jan \"de smit\" 1500-1510 & naam:".toList).flatMap Leaf.text = "jande smit".toList := by
    decide +kernel
  have names : (segments (YearRange.extract
      "naam:jan \"de smit\" 1500-1510 & naam:".toList).2).flatMap
        (named ⟨["naam".toList], []⟩) = "naamnaam".toList := by
    decide +kernel
  have range : YearRange.taken "naam:jan \"de smit\" 1500-1510 & naam:".toList =
      ["1500-1510".toList] := by
    decide +kernel
  rw [asks, names, range] at whole
  refine ⟨whole, years _ (range ▸ List.mem_singleton_self _), ?_, ?_⟩
  · exact dropped " naam:".toList (by decide +kernel) rfl
  · exact nothing rfl

end Query

end CardCatalog
