import CardCatalog.Proofs.Query.Blanks

/-!
The scope over every field says what no scope says. Its value goes back into the text
where it stood, with its quotes, so that the words and the phrases come in their order;
blanks keep the value from what is around it, whether it was scoped or not. Only a blank
quotation is seen: scoped it is dropped, and unscoped it is a phrase that asks for nothing.
-/

namespace CardCatalog

namespace Sense

def asked (s : Sense) : Sense := { s with phrases := s.phrases.filter (!·.isEmpty) }

variable {s t : Sense}

theorem asked_append : (s ++ t).asked = s.asked ++ t.asked := by
  have phrases : (s ++ t).phrases = s.phrases ++ t.phrases := rfl
  rw [asked, phrases, List.filter_append]
  rfl

theorem group_congr (same : s.asked = t.asked) (fields : List WeightedField) :
    s.collapsed.group fields = t.collapsed.group fields := by
  have kept (u : Sense) : u.asked.collapsed.group fields = u.collapsed.group fields := by
    have twice : (u.phrases.filter (!·.isEmpty)).filter (!·.isEmpty) =
        u.phrases.filter (!·.isEmpty) := by
      rw [List.filter_filter]
      simp
    simp only [group, leaves, asked, collapsed, twice]
    rfl
  rw [← kept s, same, kept]

end Sense

namespace Query

open Scope (Paired Unquoted everyField)

/-- What can stand behind the colon of a scope, and does not begin with a scope itself. -/
inductive Value (known : List Text) : Text → Prop where
  | word {w : Text} (filled : w ≠ [])
      (solid : ∀ c ∈ w, Text.isBlank c = false ∧ Text.isQuote c = false)
      (nameless : ∀ n ∈ everyField :: known, ¬ n ++ [':'] <+: w) : Value known w
  | quotation {t : Text} (free : Unquoted t) : Value known (Item.quoted t)

section Value

variable {known : List Text} {w : Text} (value : Value known w)
include value

theorem rawValue_value : Scope.rawValue w = w := by
  cases value with
  | word filled solid _ => exact rawValue_word filled solid
  | quotation free =>
    have alone := @rawValue_quoted [] _ free
    rwa [List.append_nil] at alone

theorem paired_value : Paired w := rawValue_value value ▸ Scope.paired_rawValue w

theorem split_value : (Scope.split known w).scopes = [] ∧
    Text.words (Scope.split known w).leftover = Text.words w := by
  cases value with
  | word filled solid nameless =>
    have unnamed : Scope.nameAt known (w ++ []) = none := by
      rw [List.append_nil, Scope.nameAt_eq_none]
      intro n among
      cases fit : Scope.fits w n with
      | false => rfl
      | true => exact absurd (Scope.fits_iff.mp fit).2 (nameless n among)
    have passed := @behind_solid known [] w [] solid fun _ => unnamed
    have pieces : Scan.pieces (Scope.find known) w = w.map .loose := by
      simpa [Scan.pieces, Scan.behind] using passed
    have rest : (w.map .loose).flatMap Scope.leftoverOf = w := by
      simp [List.flatMap_map, Scope.leftoverOf]
    rw [Scope.words_split, Scope.split, pieces, Scan.values_loose, rest]
    exact ⟨rfl, rfl⟩
  | quotation free =>
    rw [split_quoted free]
    exact ⟨rfl, Text.words_collapse _⟩

theorem blank_value (blank : Scope.inner w = []) :
    Text.keywords w = [] ∧ (sense known w).asked = ⟨[], [], []⟩ := by
  cases value with
  | word filled solid _ => exact absurd ((inner_word solid).symm.trans blank) filled
  | @quotation t free =>
    rw [inner_quotation free] at blank
    have none : Text.words t = [] := by rw [← Text.words_trim, blank]; rfl
    constructor
    · rw [Item.quoted, Text.keywords_concat_quote, Text.keywords_cons_quote, Text.keywords, none]
      rfl
    · rw [sense_quoted known free, none]
      rfl

variable (names : ∀ n ∈ known, Scope.Plain n ∧ ':' ∉ n)
include names

theorem split_everyField : (Scope.split known (everyField ++ ':' :: w)).scopes = [] ∧
    Text.words (Scope.split known (everyField ++ ':' :: w)).leftover =
      if Scope.inner w = [] then [] else Text.words w := by
  have colonless : ∀ n ∈ everyField :: known, ':' ∉ n := by
    intro n among
    rcases List.mem_cons.mp among with rfl | listed
    · decide
    · exact (names n listed).2
  have pieces := pieces_scope (fun n listed => (names n listed).1) colonless List.mem_cons_self
    (rawValue_value value)
  rw [Scope.words_split, Scope.split, pieces]
  constructor
  · simp [Scan.values, Piece.value?, Scope.scopeOf]
  · by_cases blank : Scope.inner w = []
    · simp [Scope.leftoverOf, blank, Text.words, Text.splitOn, Text.space_blank]
    · rw [List.flatMap_singleton, Scope.leftoverOf, if_pos ⟨rfl, blank⟩, if_neg blank]
      have space : ∀ c ∈ [' '], Text.isBlank c = true := by
        simp [Text.space_blank]
      exact Text.words_padded space space

theorem value_everyField :
    (Scope.split known (everyField ++ ':' :: w)).scopes = (Scope.split known w).scopes ∧
      Text.keywords (Scope.split known (everyField ++ ':' :: w)).leftover =
        Text.keywords (Scope.split known w).leftover ∧
      (sense known (everyField ++ ':' :: w)).asked = (sense known w).asked := by
  obtain ⟨scopes, words⟩ := split_everyField value names
  obtain ⟨scopes', words'⟩ := split_value value
  have same : (Scope.split known (everyField ++ ':' :: w)).scopes = (Scope.split known w).scopes :=
    scopes.trans scopes'.symm
  refine ⟨same, ?_⟩
  by_cases blank : Scope.inner w = []
  · obtain ⟨keywords, asked⟩ := blank_value value blank
    rw [if_pos blank] at words
    constructor
    · rw [Text.keywords_of_words words', keywords, Text.keywords, words]
      rfl
    · have nothing : sense known (everyField ++ ':' :: w) = sense known [] :=
        sense_congr scopes words
      rw [asked, nothing]
      rfl
  · rw [if_neg blank, ← words'] at words
    exact ⟨Text.keywords_of_words words, congrArg Sense.asked (sense_congr same words)⟩

end Value

section Lone

variable {fields : SearchFields} {q : Text} (names : ∀ n ∈ fields.scopable, Scope.Plain n)
  (single : ∀ c ∈ q, isAnd c = false)
include names single

theorem groups_lone : ((segments q).map fun s =>
      (sense fields.scopable s).collapsed.group fields.weighted).filter (!·.isEmpty) =
    [(sense fields.scopable q).collapsed.group fields.weighted].filter (!·.isEmpty) := by
  rw [segments, Text.splitOn_eq_self single, List.map_singleton, ← sense_trim names q]
  cases Text.trim q with
  | nil => rfl
  | cons c rest => rfl

theorem keywords_lone : (segments q).flatMap (keywords fields) = keywords fields q := by
  obtain ⟨scopes, words⟩ := Scope.split_trim names q
  have trimmed : keywords fields (Text.trim q) = keywords fields q := by
    rw [keywords_split, keywords_split, scopes, Text.keywords_of_words words]
  rw [segments, Text.splitOn_eq_self single, List.map_singleton, ← trimmed]
  cases Text.trim q with
  | nil => rfl
  | cons c rest => exact List.flatMap_singleton _ _

end Lone

section Between

variable {fields : SearchFields} {a b v w : Text}
  (names : ∀ n ∈ fields.scopable, Scope.Plain n)
  (opens : ∀ c ∈ a.getLast?, Text.isBlank c = true) (closed : Paired a)
  (closes : ∀ c ∈ b.head?, Text.isBlank c = true)
include names opens closed closes

theorem sense_between (paired : Paired v) :
    sense fields.scopable (a ++ v ++ b) =
      sense fields.scopable a ++ (sense fields.scopable v ++ sense fields.scopable b) := by
  have whole := Scope.split_beside (y := v ++ b) names closed (.inl opens)
  have later := Scope.split_beside (y := b) names paired (.inr closes)
  rw [List.append_assoc, sense_parted names closed whole.1 whole.2,
    sense_parted names paired later.1 later.2]

theorem keywords_between (paired : Paired v) :
    keywords fields (a ++ v ++ b) =
      ((Scope.split fields.scopable a).scopes ++ ((Scope.split fields.scopable v).scopes ++
          (Scope.split fields.scopable b).scopes)).flatMap (Text.keywords ·.value) ++
        (Text.keywords (Scope.split fields.scopable a).leftover ++
          (Text.keywords (Scope.split fields.scopable v).leftover ++
            Text.keywords (Scope.split fields.scopable b).leftover)) := by
  have whole := Scope.split_beside (y := v ++ b) names closed (.inl opens)
  have later := Scope.split_beside (y := b) names paired (.inr closes)
  rw [List.append_assoc, keywords_split, whole.1, later.1]
  simp only [Text.keywords, whole.2, later.2, List.map_append, List.filter_append]

end Between

section Plain

variable {a b w : Text}

theorem single_everyField (single : ∀ c ∈ a ++ w ++ b, isAnd c = false) :
    ∀ c ∈ a ++ (everyField ++ ':' :: w) ++ b, isAnd c = false := by
  have name : ∀ c ∈ everyField ++ [':'], isAnd c = false :=
    Text.forall_of_all (by decide +kernel)
  intro c member
  rcases List.mem_append.mp member with front | back
  · rcases List.mem_append.mp front with before | value
    · exact single c (by simp [before])
    · have shape : everyField ++ ':' :: w = everyField ++ [':'] ++ w := by simp
      rw [shape] at value
      exact (List.mem_append.mp value).elim (name c) fun inside => single c (by simp [inside])
  · exact single c (by simp [back])

theorem plain_everyField (plain : ¬ HasYears (a ++ w ++ b)) :
    ¬ HasYears (a ++ (everyField ++ ':' :: w) ++ b) := by
  have shape : a ++ (everyField ++ ':' :: w) ++ b =
      a ++ 'a' :: ("lles".toList ++ ':' :: (w ++ b)) := by
    simp [everyField]
  rw [shape]
  intro years
  rcases hasYears_split (by decide) years with front | rest
  · exact plain (front.mono ⟨[], w ++ b, by simp⟩)
  · rcases hasYears_split (by decide) rest with name | back
    · exact short_plain (by decide) name
    · exact plain (back.mono ⟨a, [], by simp⟩)

end Plain

variable {fields : SearchFields} {a b w : Text}

/-- To scope a value over every field is to leave it unscoped. -/
theorem compile_everyField (names : ∀ n ∈ fields.scopable, Scope.Plain n ∧ ':' ∉ n)
    (opens : ∀ c ∈ a.getLast?, Text.isBlank c = true) (closed : Paired a)
    (closes : ∀ c ∈ b.head?, Text.isBlank c = true) (value : Value fields.scopable w)
    (single : ∀ c ∈ a ++ w ++ b, isAnd c = false) (plain : ¬ HasYears (a ++ w ++ b)) :
    (compile fields (a ++ (everyField ++ ':' :: w) ++ b)).map Compiled.collapsed =
      (compile fields (a ++ w ++ b)).map Compiled.collapsed := by
  have spaceless : ∀ n ∈ fields.scopable, Scope.Plain n := fun n listed => (names n listed).1
  have paired : Paired (everyField ++ ':' :: w) := by
    have head : Unquoted (everyField ++ [':']) := Text.forall_of_all (by decide +kernel)
    have both := (Scope.paired_append (Scope.paired_unquoted head)).mpr (paired_value value)
    rwa [List.append_assoc] at both
  obtain ⟨scopes, words, asked⟩ := value_everyField value names
  have single' := single_everyField single
  have plain' := plain_everyField plain
  apply compile_alike
  · rw [extract_plain plain, extract_plain plain']
  · have same : (sense fields.scopable (a ++ (everyField ++ ':' :: w) ++ b)).asked =
        (sense fields.scopable (a ++ w ++ b)).asked := by
      rw [sense_between spaceless opens closed closes paired,
        sense_between spaceless opens closed closes (paired_value value)]
      simp only [Sense.asked_append, asked]
    rw [groupsOf_collapsed, groupsOf_collapsed, extract_plain plain, extract_plain plain',
      groups_lone spaceless single, groups_lone spaceless single', Sense.group_congr same]
  · intro k
    rw [extract_plain plain, extract_plain plain', keywords_lone spaceless single,
      keywords_lone spaceless single', keywords_between spaceless opens closed closes paired,
      keywords_between spaceless opens closed closes (paired_value value), scopes, words]

def leadingText : Text := "jan \"x  y\"\t".toList

def valueText : Text := "\"de  bakker\"".toList

def trailingText : Text := " smid\"x".toList

def bareText : Text := leadingText ++ valueText ++ trailingText

def everyText : Text := leadingText ++ (everyField ++ ':' :: valueText) ++ trailingText

/-- Without the scope there is no colon in the query, and the blanks in its phrases stay. -/
theorem compile_everyField_bakker :
    ∃ every bare, compile nameScope everyText = some every ∧
      compile nameScope bareText = some bare ∧ every.collapsed = bare.collapsed ∧
      every.plan.leaves.map Leaf.text = ["x y", "de bakker", "jan smid\"x"].map String.toList ∧
      bare.plan.leaves.map Leaf.text = ["x  y", "de  bakker", "jan smid\"x"].map String.toList := by
  have names : ∀ n ∈ nameScope.scopable, Scope.Plain n ∧ ':' ∉ n := by
    intro n listed
    rw [List.mem_singleton.mp listed]
    exact ⟨⟨by decide, Text.forall_of_all (by decide +kernel)⟩, by decide⟩
  have value : Value nameScope.scopable valueText :=
    @Value.quotation _ "de  bakker".toList (Text.forall_of_all (by decide +kernel))
  have single : ∀ c ∈ bareText, isAnd c = false := Text.forall_of_all (by decide +kernel)
  have plain : ¬ HasYears bareText := fun years => absurd (dash_of_years years) (by decide +kernel)
  have opens : ∀ c ∈ leadingText.getLast?, Text.isBlank c = true := by
    have last : leadingText.getLast? = some '\t' := by decide +kernel
    rw [last]
    rintro c ⟨⟩
    decide +kernel
  have closed : leadingText.countP Text.isQuote % 2 = 0 := by decide +kernel
  have closes : ∀ c ∈ trailingText.head?, Text.isBlank c = true := by
    rintro c ⟨⟩
    decide +kernel
  have asked : (compile nameScope everyText).map (·.plan.leaves.map Leaf.text) =
      some (["x y", "de bakker", "jan smid\"x"].map String.toList) := by
    decide +kernel
  have asked' : (compile nameScope bareText).map (·.plan.leaves.map Leaf.text) =
      some (["x  y", "de  bakker", "jan smid\"x"].map String.toList) := by
    decide +kernel
  obtain ⟨every, made, texts⟩ := Option.map_eq_some_iff.mp asked
  obtain ⟨bare, made', texts'⟩ := Option.map_eq_some_iff.mp asked'
  have alike := compile_everyField names opens closed closes value single plain
  rw [everyText] at made
  rw [bareText] at made'
  rw [made, made'] at alike
  exact ⟨every, bare, made, made', Option.some_inj.mp alike, texts, texts'⟩

end Query

end CardCatalog
