import CardCatalog.Proofs.Query.Conjunction

/-!
Blanks in a query are of no account beyond parting its words. Years lie inside a word, so
queries of the same words have the same years and are left with the same words; from there
on every stage asks for the same, in texts that are equal once they are single-spaced. A
segment without a colon is never searched for scopes, and it would make no difference if
it were.
-/

namespace CardCatalog

def Compiled.collapsed (c : Compiled) : Compiled :=
  ⟨⟨c.plan.groups.map Group.collapsed, c.plan.years⟩, c.keywords⟩

def Scoped.group (weighted : List WeightedField) (cut : Scoped) : Group :=
  cut.scopes.map (fun scope => .one (.field scope.field scope.value)) ++
    (Phrase.compile weighted cut.leftover).toList

namespace YearRange

variable {s t : Text}

theorem pieces_words (t : Text) :
    Scan.values (Scan.pieces find t) =
        (Text.words t).flatMap (fun w => Scan.values (Scan.pieces find w)) ∧
      Text.words (blanked (Scan.pieces find t)) =
        (Text.words t).flatMap fun w => Text.words (blanked (Scan.pieces find w)) := by
  have cut {c : Char} (blank : Text.isBlank c = true) (a b : Text) :=
    pieces_parted (Phrase.not_numeral_of_blank blank) a b
  constructor
  · refine Text.flatMap_parted (f := fun t => Scan.values (Scan.pieces find t)) rfl ?_ t
    intro c blank a b
    simp only [cut blank, Scan.values, List.filterMap_append]
    rfl
  · refine Text.flatMap_parted (f := fun t => Text.words (blanked (Scan.pieces find t))) rfl ?_ t
    intro c blank a b
    have around : blanked (Scan.pieces find a ++ .loose c :: Scan.pieces find b) =
        blanked (Scan.pieces find a) ++ c :: blanked (Scan.pieces find b) := by
      simp [blanked]
    simp only [cut blank, around, Text.words_append blank]

theorem extract_of_words (same : Text.words s = Text.words t) :
    (extract s).1 = (extract t).1 ∧
      Text.collapse (blanked (Scan.pieces find s)) =
        Text.collapse (blanked (Scan.pieces find t)) := by
  obtain ⟨values, words⟩ := pieces_words s
  obtain ⟨values', words'⟩ := pieces_words t
  constructor
  · rw [years_eq, years_eq, values, values', same]
  · rw [Text.collapse, Text.collapse, words, words', same]

end YearRange

namespace Query

open YearRange (extract)

variable {fields : SearchFields} {s t : Text}

theorem compile_alike (years : (extract s).1 = (extract t).1)
    (groups : (groupsOf fields s).map Group.collapsed = (groupsOf fields t).map Group.collapsed)
    (words : ∀ w, w ∈ (segments (extract s).2).flatMap (keywords fields) ↔
      w ∈ (segments (extract t).2).flatMap (keywords fields)) :
    (compile fields s).map Compiled.collapsed = (compile fields t).map Compiled.collapsed := by
  have asks {q : Text} :
      compile fields q = none ↔ (groupsOf fields q).map Group.collapsed = [] := by
    rw [List.map_eq_nil_iff, groupsOf_eq_nil]
  cases made : compile fields s with
  | none =>
    have other : compile fields t = none := by rw [asks, ← groups, ← asks, made]
    rw [other]
  | some one =>
    cases made' : compile fields t with
    | none =>
      rw [asks, ← groups, ← asks, made] at made'
      cases made'
    | some other =>
      have own {q : Text} {c : Compiled} (made : compile fields q = some c) :
          groupsOf fields q = c.plan.groups := by
        rw [groupsOf, made]
        rfl
      have keywords : one.keywords = other.keywords := by
        apply WordSet.ext_words
        intro w
        rw [keywords_of_compile made, keywords_of_compile made', WordSet.mem_ofList,
          WordSet.mem_ofList, words]
      have dated : one.plan.years = other.plan.years :=
        (years_of_compile rfl made).trans (years.trans (years_of_compile rfl made').symm)
      rw [own made, own made'] at groups
      rw [Option.map_some, Option.map_some, Compiled.collapsed, Compiled.collapsed, groups,
        keywords, dated]

section Respaced

variable (names : ∀ n ∈ fields.scopable, Scope.Blankless n) (same : Text.words s = Text.words t)
include names same

theorem groupsOf_of_words :
    (groupsOf fields s).map Group.collapsed = (groupsOf fields t).map Group.collapsed := by
  have senses : ((segments (extract s).2).map fun p => (sense fields.scopable p).collapsed) =
      (segments (extract t).2).map fun p => (sense fields.scopable p).collapsed := by
    rw [senses_extract names, senses_extract names, ← senses_collapse names,
      (YearRange.extract_of_words same).2, senses_collapse names]
  have grouped (q : Text) : (groupsOf fields q).map Group.collapsed =
      (((segments (extract q).2).map fun p => (sense fields.scopable p).collapsed).map
        (Sense.group fields.weighted)).filter (!·.isEmpty) := by
    rw [groupsOf_collapsed, List.map_map]
    rfl
  rw [grouped, grouped, senses]

theorem keywords_of_words : (segments (extract s).2).flatMap (keywords fields) =
    (segments (extract t).2).flatMap (keywords fields) := by
  rw [keywords_extract names, keywords_extract names, ← keywords_collapse names,
    (YearRange.extract_of_words same).2, keywords_collapse names]

end Respaced

theorem group_parts (fields : SearchFields) (s : Text) :
    group fields s = (parts fields s).group fields.weighted := rfl

theorem group_colonless (colonless : ':' ∉ s) :
    (group fields s).collapsed =
      ((Scope.split fields.scopable s).group fields.weighted).collapsed := by
  have leaves {s t : Text} (same : Text.words s = Text.words t) :
      (Phrase.leaves fields.weighted s).map Leaf.collapsed =
        (Phrase.leaves fields.weighted t).map Leaf.collapsed := by
    obtain ⟨phrases, loose⟩ := Phrase.phrases_of_words same
    rw [Phrase.leaves_collapsed _ _ [], Phrase.leaves_collapsed _ _ [], phrases, loose]
  have clauses (t : Text) : (Phrase.compile fields.weighted t).toList.map Clause.collapsed =
      (Clause.ofLeaves ((Phrase.leaves fields.weighted t).map Leaf.collapsed)).toList := by
    rw [← Clause.collapsed_ofLeaves, Phrase.compile]
    cases Clause.ofLeaves (Phrase.leaves fields.weighted t) <;> rfl
  have direct : parts fields s = ⟨[], s⟩ := by
    rw [parts, if_neg (by simpa using colonless)]
  rw [group_parts, direct, Scope.split_colonless colonless, Scoped.group, Scoped.group,
    Group.collapsed, Group.collapsed]
  simp only [List.map_nil, List.nil_append, clauses, leaves (Text.words_collapse s)]

/-- Queries of the same words compile alike. Neither is it seen in a segment without a colon
whether it was searched for scopes. -/
theorem compile_of_words (names : ∀ n ∈ fields.scopable, Scope.Blankless n) :
    (∀ s t, Text.words s = Text.words t →
      (compile fields s).map Compiled.collapsed = (compile fields t).map Compiled.collapsed) ∧
    ∀ s, ':' ∉ s →
      (group fields s).collapsed =
        ((Scope.split fields.scopable s).group fields.weighted).collapsed := by
  refine ⟨fun s t same => ?_, fun s colonless => group_colonless colonless⟩
  apply compile_alike (YearRange.extract_of_words same).1 (groupsOf_of_words names same)
  intro w
  rw [keywords_of_words names same]

def unevenText : Text := "\tnaam:\"jan\u00a0 smit\"\n&\u2003\"de  bakker\" 12-3".toList

def evenText : Text := "naam:\"jan smit\" & \"de bakker\" 12-3".toList

/-- Of a tab, a line feed and the like, those in the value and in the phrase stay. -/
theorem compile_of_words_smith :
    ∃ uneven even, compile nameScope unevenText = some uneven ∧
      compile nameScope evenText = some even ∧ uneven.collapsed = even.collapsed ∧
      uneven.plan.leaves.map Leaf.text =
        ["jan\u00a0 smit", "de  bakker", "12-3"].map String.toList ∧
      even.plan.leaves.map Leaf.text = ["jan smit", "de bakker", "12-3"].map String.toList := by
  have names : ∀ n ∈ nameScope.scopable, Scope.Blankless n := by
    intro n listed
    rw [List.mem_singleton.mp listed]
    exact Text.forall_of_all (by decide +kernel)
  have same : Text.words unevenText = Text.words evenText := by decide +kernel
  have asked : (compile nameScope unevenText).map (·.plan.leaves.map Leaf.text) =
      some (["jan\u00a0 smit", "de  bakker", "12-3"].map String.toList) := by
    decide +kernel
  have asked' : (compile nameScope evenText).map (·.plan.leaves.map Leaf.text) =
      some (["jan smit", "de bakker", "12-3"].map String.toList) := by
    decide +kernel
  obtain ⟨uneven, made, texts⟩ := Option.map_eq_some_iff.mp asked
  obtain ⟨even, made', texts'⟩ := Option.map_eq_some_iff.mp asked'
  have alike := (compile_of_words names).1 unevenText evenText same
  rw [made, made'] at alike
  exact ⟨uneven, even, made, made', Option.some_inj.mp alike, texts, texts'⟩

end Query

end CardCatalog
