import CardCatalog.Proofs.Query.Clean

/-!
Two queries with an `&` between them ask for what the one asks and for what the other asks.
No year range reaches over the sign, so the ranges of both are the ranges of the whole; but
one range anywhere collapses all of the text, and for the side without it that makes a
difference in the blanks, which are seen in values and phrases alone.
-/

namespace CardCatalog

def Leaf.collapsed : Leaf → Leaf
  | field name value => field name (Text.collapse value)
  | phrase text fields => phrase (Text.collapse text) fields
  | fuzzy text fields => fuzzy (Text.collapse text) fields

def Clause.collapsed : Clause → Clause
  | one leaf => one leaf.collapsed
  | all leaves => all (leaves.map Leaf.collapsed)

def Group.collapsed (g : Group) : Group := g.map Clause.collapsed

theorem Clause.collapsed_ofLeaves (ls : List Leaf) :
    (ofLeaves ls).map collapsed = ofLeaves (ls.map Leaf.collapsed) := by
  match ls with
  | [] => rfl
  | [_] => rfl
  | _ :: _ :: _ => rfl

namespace Sense

variable (fields : List WeightedField) (s : Sense)

def leaves : List Leaf :=
  (s.phrases.filter (!·.isEmpty)).map (fun ws => .phrase (Text.joined [' '] ws) fields) ++
    if (Text.joined [' '] s.loose).any Text.isAlphanumeric then
      [.fuzzy (Text.joined [' '] s.loose) fields]
    else []

def group : Group :=
  s.scopes.map (fun scope => .one (.field scope.field scope.value)) ++
    (Clause.ofLeaves (s.leaves fields)).toList

end Sense

theorem Phrase.leaves_collapsed (fields : List WeightedField) (t : Text) (scopes : List FieldScope) :
    (leaves fields t).map Leaf.collapsed =
      Sense.leaves fields ⟨scopes, (phrases t).map Text.words, Text.words (loose t)⟩ := by
  -- a phrase is trimmed, so it has words unless it is empty
  have kept : (phrases t).filter ((!·.isEmpty) ∘ Text.words) = (phrases t).filter (!·.isEmpty) := by
    apply List.filter_congr
    intro v member
    have same := words_phrase member
    rw [← List.isEmpty_iff, ← List.isEmpty_iff, ← Bool.eq_iff_iff] at same
    exact congrArg (!·) same
  have words : Text.joined [' '] (Text.words (loose t)) = loose t := Text.collapse_collapse _
  rw [leaves_eq, Sense.leaves, List.map_append, List.filter_map, kept, List.map_map, List.map_map,
    words]
  split
  · rw [List.map_singleton, Leaf.collapsed, Text.collapse, words]
    rfl
  · rfl

namespace YearRange

/-- No range reaches over a character that is in none. -/
theorem atHead_parted {c : Char} (other : ¬ (Text.isDigit c = true ∨ c = '-')) (y r : Text) :
    atHead (y ++ c :: r) = atHead y := by
  -- a range ends in front of `c`, as none of its characters is one
  have cut {range : YearRange} (found : atHead (y ++ c :: r) = some range) :
      atHead y = some range := by
    obtain ⟨first, last, four, four', start⟩ := Query.years_of_atHead found
    have outside : c ∉ first ++ '-' :: last := fun inside =>
      other (Query.years_numeral four four' c inside)
    obtain ⟨more, rfl⟩ := Scan.prefix_before outside start
    rw [List.append_assoc, Query.atHead_years four four'] at found
    rw [Query.atHead_years four four', found]
  have longer {range : YearRange} (found : atHead y = some range) :
      atHead (y ++ c :: r) = some range := by
    obtain ⟨first, last, four, four', more, rfl⟩ := Query.years_of_atHead found
    rw [Query.atHead_years four four'] at found
    rw [List.append_assoc, Query.atHead_years four four', found]
  exact Option.ext fun range => ⟨cut, longer⟩

theorem pieces_parted {c : Char} (other : ¬ (Text.isDigit c = true ∨ c = '-')) (a b : Text) :
    Scan.pieces find (a ++ c :: b) = Scan.pieces find a ++ .loose c :: Scan.pieces find b := by
  have blind (before : Option Char) (y : Text) : find before (y ++ c :: b) = find before y :=
    congrArg (Option.map (·, 9)) (atHead_parted other y b)
  have short (before : Option Char) (y : Text) (range : YearRange) (n : Nat)
      (found : find before y = some (range, n)) : n ≤ y.length := by
    obtain ⟨_, head, same⟩ := Option.map_eq_some_iff.mp found
    cases same
    obtain ⟨first, last, four, four', start⟩ := Query.years_of_atHead head
    have nine : (first ++ '-' :: last).length = 9 := by simp [four.1, four'.1]
    exact nine ▸ start.length_le
  -- the finder does not look at what stands before
  have anew : ∀ count before, Scan.behind find count before b = Scan.behind find count none b := by
    induction b with
    | nil => intro count before; cases count <;> rfl
    | cons c b _ => intro count before; cases count <;> rfl
  rw [Scan.pieces, Scan.behind_parted blind short a (Nat.zero_le _), anew]
  rfl

theorem pieces_and (a b : Text) :
    Scan.pieces find (a ++ '&' :: b) = Scan.pieces find a ++ .loose '&' :: Scan.pieces find b :=
  pieces_parted (by decide) a b

theorem rest_of_none {q : Text} (none : (extract q).1 = none) : (extract q).2 = q := by
  rw [years_eq, List.head?_eq_none_iff] at none
  rw [extract, none]

theorem years_and (a b : Text) :
    (extract (a ++ '&' :: b)).1 = (extract a).1.or (extract b).1 := by
  rw [years_eq, years_eq, years_eq, pieces_and, Scan.values, List.filterMap_append,
    List.head?_append]
  rfl

end YearRange

namespace Query

open YearRange (extract)

variable {fields : SearchFields} {q : Text} {compiled : Compiled}

theorem segments_and (a b : Text) : segments (a ++ '&' :: b) = segments a ++ segments b := by
  rw [segments, Text.splitOn_append (by decide), List.map_append, List.filter_append]
  rfl

/-- The groups that a query compiles to, of which a query that asks for nothing has none. -/
def groupsOf (fields : SearchFields) (q : Text) : List Group :=
  (compile fields q).elim [] (·.plan.groups)

theorem groupsOf_eq (fields : SearchFields) (q : Text) :
    groupsOf fields q = ((segments (extract q).2).map (group fields)).filter (!·.isEmpty) := by
  rw [groupsOf]
  cases made : compile fields q with
  | none => simpa [eq_comm (a := [])] using compile_eq_none.mp made
  | some compiled => exact (compile_groups made).1

theorem groupsOf_eq_nil : groupsOf fields q = [] ↔ compile fields q = none := by
  rw [groupsOf]
  cases made : compile fields q with
  | none => simp
  | some compiled => simpa using (groups_ne_nil made).1

theorem group_collapsed (fields : SearchFields) (t : Text) :
    (group fields t).collapsed =
      (sense fields.scopable t).collapsed.group fields.weighted := by
  have text (t : Text) : (Phrase.compile fields.weighted t).toList.map Clause.collapsed =
      ((Phrase.compile fields.weighted t).map Clause.collapsed).toList := by
    cases Phrase.compile fields.weighted t <;> rfl
  rw [sense_parts, Group.collapsed, group, List.map_append, text, Phrase.compile,
    Clause.collapsed_ofLeaves, Phrase.leaves_collapsed _ _ (parts fields t).scopes]
  simp only [Sense.group, Sense.collapsed, List.map_map]
  rfl

theorem groupsOf_collapsed (fields : SearchFields) (q : Text) :
    (groupsOf fields q).map Group.collapsed =
      ((segments (extract q).2).map fun s =>
        (sense fields.scopable s).collapsed.group fields.weighted).filter (!·.isEmpty) := by
  have kept : (!·.isEmpty) ∘ Group.collapsed = ((!·.isEmpty) : Group → Bool) := by
    funext g
    cases g <;> rfl
  have each : (fun s => (sense fields.scopable s).collapsed.group fields.weighted) =
      Group.collapsed ∘ group fields := funext fun s => (group_collapsed fields s).symm
  rw [groupsOf_eq, each, ← List.map_map, List.filter_map (f := Group.collapsed), kept]

section Extract

variable (names : ∀ n ∈ fields.scopable, Scope.Blankless n)
include names

theorem senses_extract (q : Text) :
    ((segments (extract q).2).map fun s => (sense fields.scopable s).collapsed) =
      (segments (YearRange.blanked (Scan.pieces YearRange.find q))).map fun s =>
        (sense fields.scopable s).collapsed := by
  rcases YearRange.rest_cases q with same | same
  · rw [same]
  · rw [same, senses_collapse names]

theorem keywords_extract (q : Text) :
    (segments (extract q).2).flatMap (keywords fields) =
      (segments (YearRange.blanked (Scan.pieces YearRange.find q))).flatMap (keywords fields) := by
  rcases YearRange.rest_cases q with same | same
  · rw [same]
  · rw [same, keywords_collapse names]

end Extract

theorem blanked_and (a b : Text) :
    segments (YearRange.blanked (Scan.pieces YearRange.find (a ++ '&' :: b))) =
      segments (YearRange.blanked (Scan.pieces YearRange.find a)) ++
        segments (YearRange.blanked (Scan.pieces YearRange.find b)) := by
  rw [← segments_and, YearRange.pieces_and, blanked_eq, List.flatMap_append, List.flatMap_cons,
    ← blanked_eq, ← blanked_eq]
  rfl

section And

variable (names : ∀ n ∈ fields.scopable, Scope.Blankless n) (a b : Text)

include names in
theorem groupsOf_and : (groupsOf fields (a ++ '&' :: b)).map Group.collapsed =
    (groupsOf fields a ++ groupsOf fields b).map Group.collapsed := by
  have grouped (q : Text) : (groupsOf fields q).map Group.collapsed =
      (((segments (extract q).2).map fun s => (sense fields.scopable s).collapsed).map
        (Sense.group fields.weighted)).filter (!·.isEmpty) := by
    rw [groupsOf_collapsed, List.map_map]
    rfl
  rw [List.map_append, grouped, grouped, grouped, senses_extract names, senses_extract names,
    senses_extract names, blanked_and, List.map_append, List.map_append, List.filter_append]

theorem groupsOf_and_yearless (first : (extract a).1 = none) (second : (extract b).1 = none) :
    groupsOf fields (a ++ '&' :: b) = groupsOf fields a ++ groupsOf fields b := by
  have whole : (extract (a ++ '&' :: b)).1 = none := by
    rw [YearRange.years_and, first, second]
    rfl
  rw [groupsOf_eq, groupsOf_eq, groupsOf_eq, YearRange.rest_of_none first,
    YearRange.rest_of_none second, YearRange.rest_of_none whole, segments_and, List.map_append,
    List.filter_append]

include names in
theorem keywords_and : (segments (extract (a ++ '&' :: b)).2).flatMap (keywords fields) =
    (segments (extract a).2).flatMap (keywords fields) ++
      (segments (extract b).2).flatMap (keywords fields) := by
  rw [keywords_extract names, keywords_extract names, keywords_extract names, blanked_and,
    List.flatMap_append]

end And

/-- The sign between two queries is their conjunction. -/
theorem compile_and (names : ∀ n ∈ fields.scopable, Scope.Blankless n) (a b : Text) :
    (compile fields (a ++ '&' :: b) = none ↔ compile fields a = none ∧ compile fields b = none) ∧
    ∀ compiled, compile fields (a ++ '&' :: b) = some compiled →
      compiled.plan.years = (extract a).1.or (extract b).1 ∧
      compiled.plan.groups.map Group.collapsed =
        (groupsOf fields a ++ groupsOf fields b).map Group.collapsed ∧
      ((extract a).1 = none → (extract b).1 = none →
        compiled.plan.groups = groupsOf fields a ++ groupsOf fields b) ∧
      ∀ first second, compile fields a = some first → compile fields b = some second →
        ∀ w, w ∈ compiled.keywords.words ↔
          w ∈ first.keywords.words ∨ w ∈ second.keywords.words := by
  have groups := groupsOf_and names a b
  constructor
  · rw [← groupsOf_eq_nil, ← groupsOf_eq_nil, ← groupsOf_eq_nil, ← List.append_eq_nil_iff,
      ← List.map_eq_nil_iff (f := Group.collapsed), groups, List.map_eq_nil_iff]
  · intro compiled made
    have own : groupsOf fields (a ++ '&' :: b) = compiled.plan.groups := by
      rw [groupsOf, made]
      rfl
    refine ⟨?_, own ▸ groups, fun one two => own ▸ groupsOf_and_yearless a b one two, ?_⟩
    · exact (years_of_compile rfl made).trans (YearRange.years_and a b)
    · intro first second one two w
      rw [keywords_of_compile made, keywords_of_compile one, keywords_of_compile two,
        WordSet.mem_ofList, WordSet.mem_ofList, WordSet.mem_ofList, keywords_and names,
        List.mem_append]

def nameScope : SearchFields := ⟨["naam".toList], []⟩

def datedText : Text := "\"de  smit\" 1500-1510 ".toList

def scopedText : Text := "naam:\"jan  smit\" & -".toList

/-- The years of the first query collapse the value in the second one, and what stands behind
the second sign asks for nothing. -/
theorem compile_and_smith :
    ∃ whole, compile nameScope (datedText ++ '&' :: scopedText) = some whole ∧
      whole.plan.years = (extract datedText).1.or (extract scopedText).1 ∧
      whole.plan.groups.map Group.collapsed =
        (groupsOf nameScope datedText ++ groupsOf nameScope scopedText).map Group.collapsed ∧
      whole.plan.leaves.map Leaf.text = ["de smit", "jan smit"].map String.toList ∧
      ((groupsOf nameScope scopedText).flatMap (·.flatMap Clause.leaves)).map Leaf.text =
        ["jan  smit".toList] := by
  have names : ∀ n ∈ nameScope.scopable, Scope.Blankless n := by
    intro n listed
    rw [List.mem_singleton.mp listed]
    exact Text.forall_of_all (by decide +kernel)
  have asked : (compile nameScope (datedText ++ '&' :: scopedText)).map
      (·.plan.leaves.map Leaf.text) = some (["de smit", "jan smit"].map String.toList) := by
    decide +kernel
  obtain ⟨whole, made, texts⟩ := Option.map_eq_some_iff.mp asked
  obtain ⟨years, groups, _⟩ := (compile_and names datedText scopedText).2 whole made
  refine ⟨whole, made, years, groups, texts, ?_⟩
  decide +kernel

end Query

end CardCatalog
