import CardCatalog.Proofs.Query.PhraseSpacing
import CardCatalog.Proofs.Query.ScopeSpacing

/-!
Scopes of a text that is written with other blanks. Here a name is only known to have no
blank in it. It may have quotes, and then a text can start both with a scope and with a
quotation; the scan takes the quotation, and what is behind is read in one way only.
-/

namespace CardCatalog

namespace Scope

def Blankless (name : Text) : Prop := ∀ c ∈ name, Text.isBlank c = false

section Names

variable {known : List Text} {name r : Text} {b : Char} (names : ∀ n ∈ known, Blankless n)
include names

theorem blankless_of_mem (among : name ∈ everyField :: known) :
    ∀ c ∈ name ++ [':'], Text.isBlank c = false := by
  intro c member
  rcases List.mem_append.mp member with inside | colon
  · rcases List.mem_cons.mp among with rfl | listed
    · exact (everyField_plain.2 c inside).1
    · exact names name listed c inside
  · exact List.mem_singleton.mp colon ▸ (by decide +kernel)

-- A name and its colon stand before the first blank, where a text stays as it is.
theorem nameAt_squeeze (t : Text) : nameAt known (Text.squeeze t) = nameAt known t := by
  obtain ⟨w, rest, split, same, before, behind⟩ := Text.squeeze_cut t
  have fitting : ∀ n ∈ everyField :: known, fits (Text.squeeze t) n = fits t n := by
    intro n among
    have solid := blankless_of_mem names among
    rw [Bool.eq_iff_iff, fits_iff, fits_iff, same, split, Text.prefix_cut solid before,
      Text.prefix_cut solid behind]
  rw [nameAt, nameAt, List.filter_congr fitting]

theorem nameAt_blank (blank : Text.isBlank b = true) : nameAt known (b :: r) = none := by
  apply nameAt_eq_none.mpr
  intro n among
  cases fit : fits (b :: r) n with
  | false => rfl
  | true =>
    obtain ⟨filled, start⟩ := fits_iff.mp fit
    have solid := blankless_of_mem names among
    cases n with
    | nil => exact absurd rfl filled
    | cons d more =>
      have clear := solid d (by simp)
      rw [(List.cons_prefix_cons.mp start).1, blank] at clear
      cases clear

end Names

section Values

variable {raw r : Text}

theorem squeeze_quotation (inside r : Text) : Text.squeeze ('"' :: inside ++ ['"'] ++ r) =
    '"' :: Text.squeeze inside ++ ['"'] ++ Text.squeeze r := by
  have solid : Text.isBlank '"' = false := Text.quote_solid '"' (by simp)
  rw [List.append_assoc, List.cons_append, Text.squeeze_cons, Text.push_solid solid,
    List.singleton_append, Text.squeeze_append solid]
  simp

theorem squeeze_quoted (inside : Text) :
    Text.squeeze ('"' :: inside ++ ['"']) = '"' :: Text.squeeze inside ++ ['"'] := by
  have last : Text.squeeze [] = [] := rfl
  simpa [last] using squeeze_quotation inside []

theorem quotation_squeeze (t : Text) :
    quotation? (Text.squeeze t) = (quotation? t).map Text.squeeze := by
  cases found : quotation? t with
  | some raw =>
    obtain ⟨inside, rest, free, rfl, rfl⟩ := quotation_eq_some.mp found
    have shape := squeeze_quotation inside rest
    rw [List.append_assoc, List.append_assoc, List.singleton_append, List.singleton_append] at shape
    rw [shape, Option.map_some, squeeze_quoted]
    exact quotation_closed (Phrase.unquoted_squeeze free)
  | none =>
    cases t with
    | nil => rfl
    | cons c rest =>
      rw [Text.squeeze_cons, Option.map_none]
      cases blank : Text.isBlank c with
      | false =>
        rw [Text.push_solid blank]
        exact quotation_eq_none.mpr ((quotation_eq_none.mp found).imp id Phrase.unquoted_squeeze)
      | true =>
        have space := not_quote_of_blank Text.space_blank
        rcases Text.push_cases blank (Text.squeeze rest) with ⟨more, shape, same⟩ | spaced
        · rw [same, shape]
          exact quotation_eq_none.mpr (.inl space)
        · rw [spaced]
          exact quotation_eq_none.mpr (.inl space)

theorem rawValue_squeeze (t : Text) : rawValue (Text.squeeze t) = Text.squeeze (rawValue t) := by
  rw [rawValue, rawValue, quotation_squeeze]
  cases quotation? t with
  | some raw => rfl
  | none =>
    -- without a quotation the value ends before the first blank
    obtain ⟨w, rest, split, same, before, behind⟩ := Text.squeeze_cut t
    have cut {z : Text} (blank : ∀ c ∈ z.head?, Text.isBlank c = true) :
        (w ++ z).takeWhile (fun c => !Text.isBlank c && !Text.isQuote c) =
          w.takeWhile fun c => !Text.isBlank c && !Text.isQuote c := by
      rw [List.takeWhile_append]
      split
      · rename_i whole
        have stops : z.takeWhile (fun c => !Text.isBlank c && !Text.isQuote c) = [] := by
          cases z with
          | nil => rfl
          | cons c more => simp [blank c rfl]
        rw [stops, List.append_nil, (List.takeWhile_prefix _).eq_of_length whole]
      · rfl
    have solid : ∀ c ∈ w.takeWhile (fun c => !Text.isBlank c && !Text.isQuote c),
        Text.isBlank c = false := by
      intro c member
      have kept := List.all_eq_true.mp List.all_takeWhile c member
      simp only [Bool.and_eq_true, Bool.not_eq_true'] at kept
      exact kept.1
    have whole := Text.squeeze_solid solid []
    rw [List.append_nil] at whole
    rw [Option.map_none, Option.getD_none, Option.getD_none, same, cut behind, split, cut before,
      whole]
    exact (List.append_nil _).symm

theorem squeeze_value (value : rawValue (raw ++ r) = raw) :
    Text.squeeze (raw ++ r) = Text.squeeze raw ++ Text.squeeze r := by
  apply Text.squeeze_closed
  intro c last
  rcases rawValue_shape (raw ++ r) with ⟨inside, _, shape⟩ | solid
  · rw [value] at shape
    rw [shape, List.getLast?_concat] at last
    cases last
    exact Text.quote_solid '"' (by simp)
  · rw [value] at solid
    exact (solid c (List.mem_of_getLast? last)).1

theorem inner_squeeze (value : rawValue (raw ++ r) = raw) :
    Text.words (inner (Text.squeeze raw)) = Text.words (inner raw) := by
  rcases rawValue_shape (raw ++ r) with ⟨inside, free, shape⟩ | solid
  · rw [value] at shape
    have ends : ∀ c ∈ ['"'], Text.isQuote c = true := by simp [Text.isQuote]
    have bare {x : Text} (free : Unquoted x) : inner ('"' :: x ++ ['"']) = Text.trim x :=
      congrArg Text.trim (Text.stripped_around ends free ends)
    rw [shape, squeeze_quoted, bare free, bare (Phrase.unquoted_squeeze free), Text.words_trim,
      Text.words_trim, Text.words_squeeze]
  · rw [value] at solid
    have whole := Text.squeeze_solid (fun c member => (solid c member).1) []
    rw [List.append_nil] at whole
    rw [whole]
    exact congrArg (Text.words <| inner ·) (List.append_nil raw)

theorem inner_eq_nil : inner raw = [] ↔ Text.words (inner raw) = [] := by
  constructor
  · intro empty
    rw [empty]
    rfl
  · intro none
    rw [inner, Text.words_trim] at none
    exact Text.trim_eq_nil none

end Values

def spelled (scope : FieldScope) : Text × List Text := (scope.field, Text.words scope.value)

/-- Pieces that make the same scopes and leave the same text, but for the blanks. -/
structure Alike (ps qs : List (Piece Mark)) : Prop where
  scopes : ((Scan.values ps).filterMap scopeOf).map spelled =
    ((Scan.values qs).filterMap scopeOf).map spelled
  leftover : Text.squeeze (ps.flatMap leftoverOf) = Text.squeeze (qs.flatMap leftoverOf)

namespace Alike

variable {ps qs : List (Piece Mark)} {name raw r : Text}

theorem quotation (alike : Alike ps qs) (raw : Text) :
    Alike (.token .quotation (Text.squeeze raw) :: ps) (.token .quotation raw :: qs) :=
  ⟨alike.scopes, Text.squeeze_congr (Text.squeeze_squeeze raw) alike.leftover⟩

theorem scope (value : rawValue (raw ++ r) = raw) (alike : Alike ps qs) (one other : Text) :
    Alike (.token (.scope name (Text.squeeze raw)) one :: ps)
      (.token (.scope name raw) other :: qs) := by
  have words := inner_squeeze value
  have empty : inner (Text.squeeze raw) = [] ↔ inner raw = [] := by
    rw [inner_eq_nil, words, ← inner_eq_nil]
  constructor
  · have same : (scopeOf (.scope name (Text.squeeze raw))).map spelled =
        (scopeOf (.scope name raw)).map spelled := by
      simp only [scopeOf, empty]
      split
      · rfl
      · exact congrArg (fun ws => some (name, ws)) words
    have front (mark : Mark) (span : Text) (ps : List (Piece Mark)) :
        ((Scan.values (.token mark span :: ps)).filterMap scopeOf).map spelled =
          ((scopeOf mark).map spelled).toList ++
            ((Scan.values ps).filterMap scopeOf).map spelled := by
      have value : Scan.values (.token mark span :: ps) = mark :: Scan.values ps := rfl
      rw [value, List.filterMap_cons]
      cases scopeOf mark <;> rfl
    rw [front, front, same, alike.scopes]
  · rw [List.flatMap_cons, List.flatMap_cons, leftoverOf, leftoverOf]
    refine Text.squeeze_congr ?_ alike.leftover
    simp only [ne_eq, empty]
    split
    · rw [List.cons_append, List.cons_append, Text.squeeze_cons, Text.squeeze_cons,
        Text.squeeze_squeeze_append]
    · rfl

end Alike

section Reads

variable {known : List Text} {u v t r name raw : Text} {b : Char} {ps : List (Piece Mark)}
  (names : ∀ n ∈ known, Blankless n)
include names

/-- At a blank it does not matter whether the text starts, and a blank stays there. -/
theorem reads_blank (blank : Text.isBlank b = true) (reads : Reads known u (b :: r) ps) :
    (∀ v, Reads known v (b :: r) ps) ∧
      Text.push ' ' (Text.squeeze (ps.flatMap leftoverOf)) =
        Text.squeeze (ps.flatMap leftoverOf) := by
  generalize shape : b :: r = t at reads
  cases reads with
  | done => cases shape
  | loose unquoted _ behind rest =>
    cases shape
    refine ⟨fun v => .loose unquoted (fun _ => nameAt_blank names blank) behind
      (reads_after rest (by simp) (by simp)), ?_⟩
    rw [List.flatMap_cons, leftoverOf, List.singleton_append, Text.squeeze_cons,
      Text.push_blank blank, Text.push_push]
  | quotation _ _ =>
    cases shape
    exact absurd blank (by decide +kernel)
  | @scope _ lead name raw r ps opens named value rest =>
    cases opens with
    | start =>
      rw [List.nil_append] at shape
      rw [← shape, nameAt_blank names blank] at named
      cases named
    | blank isOne =>
      refine ⟨fun v => .scope (.blank isOne) named value (reads_after rest (by simp) (by simp)), ?_⟩
      obtain ⟨more, space⟩ := leftover_scope name raw
      rw [List.flatMap_cons, space, List.cons_append, Text.squeeze_cons, Text.push_push]

theorem named_squeeze (named : nameAt known (name ++ ':' :: raw ++ r) = some name)
    (value : rawValue (raw ++ r) = raw) :
    Text.squeeze (name ++ ':' :: raw ++ r) = name ++ ':' :: Text.squeeze raw ++ Text.squeeze r ∧
      nameAt known (name ++ ':' :: Text.squeeze raw ++ Text.squeeze r) = some name ∧
      rawValue (Text.squeeze raw ++ Text.squeeze r) = Text.squeeze raw := by
  have solid := blankless_of_mem names (nameAt_eq_some.mp named).1
  have shape : Text.squeeze (name ++ ':' :: raw ++ r) =
      name ++ ':' :: Text.squeeze raw ++ Text.squeeze r := by
    have front := Text.squeeze_solid solid (raw ++ r)
    rw [squeeze_value value] at front
    simpa using front
  refine ⟨shape, ?_, ?_⟩
  · rw [← shape, nameAt_squeeze names, named]
  · rw [← squeeze_value value, rawValue_squeeze, value]

theorem reads_squeeze (reads : Reads known u t ps) (start : u = [] ↔ v = []) :
    ∃ qs, Reads known v (Text.squeeze t) qs ∧ Alike qs ps := by
  induction reads generalizing v with
  | done u => exact ⟨[], .done v, rfl, rfl⟩
  | @loose u r c ps unquoted atStart behind rest ih =>
    have named := nameAt_squeeze names (c :: r)
    rw [Text.squeeze_cons] at named ⊢
    cases blank : Text.isBlank c with
    | false =>
      rw [Text.push_solid blank] at named ⊢
      obtain ⟨qs, again, scopes, leftover⟩ := @ih (v ++ [c]) (by simp)
      refine ⟨_, .loose (unquoted.imp id Phrase.unquoted_squeeze)
        (fun none => named.trans (atStart (start.mpr none))) (fun isOne => ?_) again, scopes,
        congrArg (Text.push c) leftover⟩
      rw [blank] at isOne
      cases isOne
    | true =>
      -- no name stands behind a blank that is loose, so none does behind the one that is kept
      have later : nameAt known (Text.squeeze r) = none :=
        (nameAt_squeeze names r).trans (behind blank)
      obtain ⟨qs, again, scopes, leftover⟩ := @ih (v ++ [' ']) (by simp)
      have pushed : Text.squeeze ((Piece.loose c :: ps).flatMap leftoverOf) =
          Text.push ' ' (Text.squeeze (qs.flatMap leftoverOf)) := by
        rw [leftover, ← Text.push_blank blank]
        rfl
      rcases Text.push_cases blank (Text.squeeze r) with ⟨more, shape, same⟩ | space
      · -- the blank joins the one behind it, and so it does in what is left
        rw [same]
        rw [shape] at again ⊢
        obtain ⟨anywhere, spaced⟩ := reads_blank names Text.space_blank again
        exact ⟨qs, anywhere v, scopes, (pushed.trans spaced).symm⟩
      · rw [space]
        refine ⟨_, .loose (.inl (not_quote_of_blank Text.space_blank))
          (fun _ => nameAt_blank names Text.space_blank) (fun _ => later) again, scopes, pushed.symm⟩
  | @quotation u inside r ps free rest ih =>
    obtain ⟨qs, again, alike⟩ := @ih (v ++ ('"' :: Text.squeeze inside ++ ['"'])) (by simp)
    rw [squeeze_quotation]
    exact ⟨_, .quotation (Phrase.unquoted_squeeze free) again,
      squeeze_quoted inside ▸ alike.quotation _⟩
  | @scope u lead name raw r ps opens named value rest ih =>
    obtain ⟨shape, found, same⟩ := named_squeeze names named value
    cases opens with
    | start =>
      obtain ⟨qs, again, alike⟩ := @ih (v ++ ([] ++ (name ++ ':' :: Text.squeeze raw))) (by simp)
      cases start.mp rfl
      rw [List.nil_append, shape]
      exact ⟨_, .scope .start found same again, alike.scope value _ _⟩
    | @blank _ b isOne =>
      obtain ⟨qs, again, alike⟩ := @ih (v ++ ([' '] ++ (name ++ ':' :: Text.squeeze raw))) (by simp)
      have front : Text.squeeze ([b] ++ (name ++ ':' :: raw) ++ r) =
          [' '] ++ (name ++ ':' :: Text.squeeze raw) ++ Text.squeeze r := by
        have solid := blankless_of_mem names (nameAt_eq_some.mp named).1
        have word := Text.push_word (by simp) solid (Text.squeeze raw ++ Text.squeeze r)
        rw [List.append_assoc, List.singleton_append, Text.squeeze_cons, shape,
          Text.push_blank isOne]
        simpa using word
      rw [front]
      exact ⟨_, .scope (.blank Text.space_blank) found same again, alike.scope value _ _⟩

theorem behind_of_blankless (reads : Reads known u t ps) (first : u = [] → quotation? t = none) :
    Scan.behind (find known) 0 u.getLast? t = ps := by
  induction reads with
  | done u => rfl
  | loose unquoted atStart behind _ ih =>
    rw [Scan.behind_loose (find_eq_none unquoted atStart behind), ih (by simp)]
  | @quotation u inside r ps free _ ih =>
    have closed : quotation? ('"' :: (inside ++ ['"'] ++ r)) = some ('"' :: inside ++ ['"']) := by
      simpa using @quotation_closed inside r free
    rw [Scan.behind_token (by simp) (find_quotation _ closed), ih (by simp)]
  | @scope u lead name raw r ps opens named value _ ih =>
    have value' : (name ++ ':' :: raw ++ r).drop (name.length + 1) = raw ++ r := by
      simp [List.drop_append]
    have begins : scopeAt known (name ++ ':' :: raw ++ r) =
        some (.scope name raw, name.length + 1 + raw.length) := by
      rw [scopeAt, named, Option.map_some, value', value]
    have unquoted : quotation? (lead ++ (name ++ ':' :: raw ++ r)) = none := by
      cases opens with
      | start => simpa using first rfl
      | blank isOne => exact quotation_eq_none.mpr (.inl (not_quote_of_blank isOne))
    have blocked (filled : lead ≠ []) (_ : u = []) :
        nameAt known (lead ++ (name ++ ':' :: raw ++ r)) = none := by
      cases opens with
      | start => exact absurd rfl filled
      | blank isOne => exact nameAt_blank names isOne
    have found := find_opens opens unquoted blocked begins
    have count : lead.length + (name.length + 1 + raw.length) =
        (lead ++ (name ++ ':' :: raw)).length := by
      simp
      omega
    rw [count, ← List.append_assoc] at found
    rw [Scan.behind_token (by simp) found, ih (by simp)]

theorem pieces_squeeze (t : Text) :
    Alike (Scan.pieces (find known) (Text.squeeze t)) (Scan.pieces (find known) t) := by
  cases quoted : quotation? t with
  | none =>
    obtain ⟨qs, reads, alike⟩ := reads_squeeze names (reads_pieces known t) (v := []) .rfl
    have squeezed : quotation? (Text.squeeze t) = none := by
      rw [quotation_squeeze, quoted]
      rfl
    have pieces : Scan.pieces (find known) (Text.squeeze t) = qs :=
      behind_of_blankless names reads fun _ => squeezed
    rw [pieces]
    exact alike
  | some raw =>
    obtain ⟨inside, rest, free, rfl, rfl⟩ := quotation_eq_some.mp quoted
    -- the quotation goes first, and behind it nothing starts the text any more
    have first {x : Text} (free : Unquoted x) (r : Text) :
        Scan.pieces (find known) ('"' :: x ++ ['"'] ++ r) = .token .quotation ('"' :: x ++ ['"']) ::
          Scan.behind (find known) 0 ('"' :: x ++ ['"']).getLast? r := by
      have closed : quotation? ('"' :: (x ++ ['"'] ++ r)) = some ('"' :: x ++ ['"']) := by
        simpa using @quotation_closed x r free
      exact Scan.behind_token (u := []) (by simp) (find_quotation none closed)
    obtain ⟨qs, reads, alike⟩ := reads_squeeze names
      (reads_behind known ('"' :: inside ++ ['"']) rest)
      (v := '"' :: Text.squeeze inside ++ ['"']) (by simp)
    have later := behind_of_blankless names reads (by simp)
    have shape : '"' :: inside ++ '"' :: rest = '"' :: inside ++ ['"'] ++ rest := by simp
    rw [shape, squeeze_quotation, first free, first (Phrase.unquoted_squeeze free), later]
    exact squeeze_quoted inside ▸ alike.quotation _

theorem split_squeeze (t : Text) :
    (split known (Text.squeeze t)).scopes.map spelled = (split known t).scopes.map spelled ∧
      (split known (Text.squeeze t)).leftover = (split known t).leftover := by
  obtain ⟨scopes, leftover⟩ := pieces_squeeze names t
  exact ⟨scopes, congrArg (Text.joined [' ']) (Text.words_of_squeeze leftover)⟩

end Reads

end Scope

end CardCatalog
