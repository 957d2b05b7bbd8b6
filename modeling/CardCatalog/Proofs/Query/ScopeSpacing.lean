import CardCatalog.Proofs.Query.Markers
import CardCatalog.Proofs.Query.Quotation
import CardCatalog.Proofs.Text.Spacing

/-!
Scopes of a text that is put together from parts. A blank between two texts keeps their
scopes apart if the quotations of the first are closed. A scope behind the blank takes it
along, which is the one difference to how the second text is read on its own.
-/

namespace CardCatalog

namespace Scope

section Blank

variable {known : List Text} {x y t : Text} {b : Char}

theorem nameAt_append (names : ∀ n ∈ known, Plain n) (blank : Text.isBlank b = true) (t y : Text) :
    nameAt known (t ++ b :: y) = nameAt known t := by
  have fitting : ∀ n ∈ everyField :: known, fits (t ++ b :: y) n = fits t n := by
    intro n among
    have plain := plain_of_mem names among
    have solid : ∀ c ∈ n ++ [':'], Text.isBlank c = false :=
      fun c member => (head_solid plain c member).1
    have cut := @Text.prefix_cut t (n ++ [':']) (b :: y) solid (by simpa using blank)
    rw [Bool.eq_iff_iff, fits_iff, fits_iff, cut]
  rw [nameAt, nameAt, List.filter_congr fitting]

theorem quotation_append (blank : Text.isBlank b = true) (outside : Outside t (b :: y)) :
    quotation? (t ++ b :: y) = quotation? t := by
  cases found : quotation? t with
  | some raw =>
    obtain ⟨inside, rest, free, rfl, rfl⟩ := quotation_eq_some.mp found
    rw [List.append_assoc, List.cons_append]
    exact quotation_closed free
  | none =>
    cases t with
    | nil => exact quotation_eq_none.mpr (.inl (not_quote_of_blank blank))
    | cons c rest =>
      exact quotation_eq_none.mpr (outside_passed (quotation_eq_none.mp found) outside).1

theorem rawValue_append_blank (blank : Text.isBlank b = true) (outside : Outside t (b :: y)) :
    rawValue (t ++ b :: y) = rawValue t := by
  have run : (t ++ b :: y).takeWhile (fun c => !Text.isBlank c && !Text.isQuote c) =
      t.takeWhile fun c => !Text.isBlank c && !Text.isQuote c := by
    rw [List.takeWhile_append, List.takeWhile_cons]
    simp only [blank, Bool.not_true, Bool.false_and, Bool.false_eq_true, if_false, List.append_nil]
    split
    · rename_i whole
      exact ((List.takeWhile_prefix _).eq_of_length whole).symm
    · rfl
  rw [rawValue, rawValue, quotation_append blank outside, run]

end Blank

section Append

variable {known : List Text} {u v x y t : Text} {b : Char} {ps qs : List (Piece Mark)}

theorem reads_after (reads : Reads known u t ps) (some : u ≠ []) (other : v ≠ []) :
    Reads known v t ps := by
  induction reads generalizing v with
  | done u => exact .done v
  | loose unquoted _ behind _ ih =>
    exact .loose unquoted (fun none => absurd none other) behind (ih (by simp) (by simp))
  | quotation free _ ih => exact .quotation free (ih (by simp) (by simp))
  | scope opens named value _ ih =>
    cases opens with
    | start => exact absurd rfl some
    | blank isOne => exact .scope (.blank isOne) named value (ih (by simp) (by simp))

theorem leftover_scope (name raw : Text) :
    ∃ more, ∀ span, leftoverOf (.token (.scope name raw) span) = ' ' :: more := by
  simp only [leftoverOf]
  split
  · exact ⟨_, fun _ => rfl⟩
  · exact ⟨_, fun _ => rfl⟩

theorem reads_lead (names : ∀ n ∈ known, Plain n) (blank : Text.isBlank b = true)
    (reads : Reads known [] y ps) (u : Text) :
    ∃ qs, Reads known u (b :: y) qs ∧ Scan.values qs = Scan.values ps ∧
      ∀ w, Text.words (w ++ qs.flatMap leftoverOf) =
        Text.words w ++ Text.words (ps.flatMap leftoverOf) := by
  have unquoted : Text.isQuote b = false := not_quote_of_blank blank
  have hidden : nameAt known (b :: y) = none := nameAt_blocked names (.inl blank)
  have longer : u ++ [b] ≠ [] := by simp
  -- where no name begins, the blank is passed over and the rest is read as it was
  have passed (none : nameAt known y = none) (again : Reads known (u ++ [b]) y ps) :
      ∃ qs, Reads known u (b :: y) qs ∧ Scan.values qs = Scan.values ps ∧
        ∀ w, Text.words (w ++ qs.flatMap leftoverOf) =
          Text.words w ++ Text.words (ps.flatMap leftoverOf) :=
    ⟨_, .loose (.inl unquoted) (fun _ => hidden) (fun _ => none) again, rfl,
      fun w => Text.words_append blank w _⟩
  cases reads with
  | done => exact passed (nameAt_eq_none.mpr fun n _ => by cases n <;> rfl) (.done _)
  | loose free atStart behind rest =>
    apply passed (atStart rfl)
    exact .loose free (fun none => absurd none longer) behind (reads_after rest (by simp) (by simp))
  | quotation free rest =>
    apply passed (nameAt_blocked names (.inr rfl))
    exact .quotation free (reads_after rest (by simp) (by simp))
  | @scope _ lead name raw r rs opens named value rest =>
    cases opens with
    | start =>
      -- the scope begins at the blank now
      have again := reads_after (v := u ++ ([b] ++ (name ++ ':' :: raw))) rest (by simp) (by simp)
      refine ⟨_, .scope (.blank blank) named value again, rfl, fun w => ?_⟩
      obtain ⟨more, space⟩ := leftover_scope name raw
      rw [List.flatMap_cons, List.flatMap_cons, space, space, List.cons_append,
        Text.words_append Text.space_blank]
      exact congrArg (Text.words w ++ ·) (Text.words_append Text.space_blank [] _).symm
    | @blank _ c isOne =>
      apply passed (nameAt_blocked names (.inl isOne))
      exact .scope (.blank isOne) named value (reads_after rest (by simp) (by simp))

theorem unquoted_head {lead name : Text} (opens : Opens u lead) (plain : Plain name) :
    Unquoted (lead ++ (name ++ [':'])) := by
  intro c member
  rcases List.mem_append.mp member with early | late
  · cases opens with
    | start => cases early
    | blank isOne => exact List.mem_singleton.mp early ▸ not_quote_of_blank isOne
  · exact (head_solid plain c late).2

theorem reads_append (names : ∀ n ∈ known, Plain n) (blank : Text.isBlank b = true)
    (front : Reads known u x ps) (outside : Outside x (b :: y))
    (back : Reads known (u ++ x) (b :: y) qs) : Reads known u (x ++ b :: y) (ps ++ qs) := by
  -- what is behind is read from the end of the first text, however far into it we are
  induction front with
  | done u =>
    rw [List.append_nil] at back
    exact back
  | @loose u r c ps unquoted atStart behind rest ih =>
    rw [← List.singleton_append, ← List.append_assoc] at back
    have named (t : Text) := nameAt_append names blank t y
    have start (none : u = []) : nameAt known (c :: r ++ b :: y) = Option.none :=
      (named (c :: r)).trans (atStart none)
    have later (isOne : Text.isBlank c = true) : nameAt known (r ++ b :: y) = none :=
      (named r).trans (behind isOne)
    obtain ⟨whole, next⟩ := outside_passed unquoted outside
    exact .loose whole start later (ih next back)
  | @quotation u inside r ps free rest ih =>
    rw [← List.append_assoc] at back
    rw [List.append_assoc]
    exact .quotation free (ih (outside_behind (paired_quotation free) outside) back)
  | @scope u lead name raw r ps opens named value rest ih =>
    have plain := plain_of_mem names (nameAt_eq_some.mp named).1
    have head := paired_unquoted (unquoted_head opens plain)
    have shape : lead ++ (name ++ ':' :: raw) ++ r = lead ++ (name ++ [':']) ++ (raw ++ r) := by
      simp
    -- the name has no quotes and the value has them in pairs, so the rest is as far outside
    rw [shape] at outside
    have inside := outside_behind head outside
    have next := outside_behind (value ▸ paired_rawValue (raw ++ r)) inside
    rw [← List.append_assoc] at back
    rw [List.append_assoc]
    apply Reads.scope opens _ _ (ih next back)
    · rw [← List.append_assoc, nameAt_append names blank, named]
    · rw [← List.append_assoc, rawValue_append_blank blank inside, value]

end Append

section Split

variable {known : List Text} {x y t before after : Text} {b : Char}

theorem words_split (known : List Text) (t : Text) : Text.words (split known t).leftover =
    Text.words ((Scan.pieces (find known) t).flatMap leftoverOf) :=
  Text.words_collapse _

theorem split_append (names : ∀ n ∈ known, Plain n) (blank : Text.isBlank b = true)
    (outside : Outside x (b :: y)) :
    (split known (x ++ b :: y)).scopes = (split known x).scopes ++ (split known y).scopes ∧
      Text.words (split known (x ++ b :: y)).leftover =
        Text.words (split known x).leftover ++ Text.words (split known y).leftover := by
  obtain ⟨qs, back, values, words⟩ := reads_lead names blank (reads_pieces known y) ([] ++ x)
  have reads := reads_append names blank (reads_pieces known x) outside back
  have pieces := pieces_of_reads names reads
  constructor
  · rw [split, pieces]
    simp only [Scan.values, List.filterMap_append] at values ⊢
    rw [values]
    rfl
  · rw [words_split, words_split, words_split, pieces, List.flatMap_append, words]

theorem split_blanks (names : ∀ n ∈ known, Plain n) (blank : ∀ c ∈ before, Text.isBlank c = true)
    (t : Text) : (split known (before ++ t)).scopes = (split known t).scopes ∧
      Text.words (split known (before ++ t)).leftover = Text.words (split known t).leftover := by
  induction before with
  | nil => exact ⟨rfl, rfl⟩
  | cons c rest ih =>
    have next := @split_append known [] (rest ++ t) c names (blank c (by simp)) (.inl rfl)
    have tail := ih fun d member => blank d (List.mem_cons_of_mem c member)
    exact ⟨next.1.trans tail.1, next.2.trans tail.2⟩

theorem split_trim (names : ∀ n ∈ known, Plain n) (t : Text) :
    (split known (Text.trim t)).scopes = (split known t).scopes ∧
      Text.words (split known (Text.trim t)).leftover = Text.words (split known t).leftover := by
  obtain ⟨before, after, shape, starts, ends⟩ := Text.stripped_split Text.isBlank t
  rw [List.append_assoc] at shape
  have front := split_blanks names starts (Text.trim t ++ after)
  have back : (split known (Text.trim t ++ after)).scopes = (split known (Text.trim t)).scopes ∧
      Text.words (split known (Text.trim t ++ after)).leftover =
        Text.words (split known (Text.trim t)).leftover := by
    cases after with
    | nil =>
      rw [List.append_nil]
      exact ⟨rfl, rfl⟩
    | cons c rest =>
      have free : Unquoted (c :: rest) := fun d member => not_quote_of_blank (ends d member)
      have cut := split_append names (ends c (by simp)) (x := Text.trim t) (.inr free)
      have later : ∀ d ∈ rest, Text.isBlank d = true :=
        fun d member => ends d (List.mem_cons_of_mem c member)
      have nothing := split_blanks names later []
      rw [List.append_nil] at nothing
      rw [nothing.1, nothing.2] at cut
      simpa [split, Scan.pieces, Scan.behind, Scan.values, Text.collapse, Text.joined, Text.words,
        Text.splitOn] using cut
  rw [Text.trim] at front back ⊢
  rw [← shape] at front
  exact ⟨back.1.symm.trans front.1.symm, back.2.symm.trans front.2.symm⟩

/-- Two texts with a blank next to the cut between them have the scopes of the one and of
the other, and so it is with the words that these leave. -/
theorem split_beside (names : ∀ n ∈ known, Plain n) (paired : Paired x)
    (apart : (∀ c ∈ x.getLast?, Text.isBlank c = true) ∨ ∀ c ∈ y.head?, Text.isBlank c = true) :
    (split known (x ++ y)).scopes = (split known x).scopes ++ (split known y).scopes ∧
      Text.words (split known (x ++ y)).leftover =
        Text.words (split known x).leftover ++ Text.words (split known y).leftover := by
  have nothing : (split known []).scopes = [] ∧ Text.words (split known []).leftover = [] :=
    ⟨rfl, rfl⟩
  rcases apart with last | head
  · rcases List.eq_nil_or_concat' x with rfl | ⟨before, c, rfl⟩
    · exact ⟨rfl, rfl⟩
    · have blank := last c (by simp)
      have closed : Paired before := by
        have free : Unquoted [c] := by simpa [Unquoted] using not_quote_of_blank blank
        rwa [Paired, List.countP_append, countP_unquoted free] at paired
      have whole := split_append names blank (y := y) (.inl closed)
      have front := split_append names blank (y := []) (.inl closed)
      rw [nothing.1, nothing.2, List.append_nil, List.append_nil] at front
      rw [List.append_assoc, List.singleton_append, front.1, front.2]
      exact whole
  · cases y with
    | nil => simp [nothing]
    | cons c after =>
      have blank := head c rfl
      have whole := split_append names blank (y := after) (.inl paired)
      have back := split_append (x := []) names blank (y := after) (.inl rfl)
      rw [List.nil_append, nothing.1, nothing.2, List.nil_append, List.nil_append] at back
      rw [back.1, back.2]
      exact whole

theorem paired_reads (names : ∀ n ∈ known, Plain n) {u : Text} {ps : List (Piece Mark)}
    (reads : Reads known u t ps) : Paired (ps.flatMap leftoverOf) ↔ Paired t := by
  induction reads with
  | done u => exact .rfl
  | @loose u r c ps _ _ _ _ ih =>
    rw [Paired, Paired] at ih ⊢
    rw [List.flatMap_cons, leftoverOf, List.singleton_append, List.countP_cons, List.countP_cons]
    omega
  | quotation free _ ih =>
    have pair := paired_quotation free
    rw [List.flatMap_cons, leftoverOf, paired_append pair, paired_append pair, ih]
  | @scope u lead name raw r ps opens named value _ ih =>
    have plain := plain_of_mem names (nameAt_eq_some.mp named).1
    have pair : Paired raw := value ▸ paired_rawValue (raw ++ r)
    have space : Paired [' '] := rfl
    have span : lead ++ (name ++ ':' :: raw) ++ r = lead ++ (name ++ [':']) ++ (raw ++ r) := by
      simp
    rw [span, paired_append (paired_unquoted (unquoted_head opens plain)), paired_append pair, ← ih,
      List.flatMap_cons, leftoverOf]
    split
    · have padded : Paired (' ' :: raw ++ [' ']) := by
        rw [← List.singleton_append, List.append_assoc, paired_append space, paired_append pair]
        exact space
      rw [paired_append padded]
    · rw [paired_append space]

theorem quotes_collapse (t : Text) :
    (Text.collapse t).countP Text.isQuote = t.countP Text.isQuote := by
  have solid (t : Text) :
      t.countP Text.isQuote = (t.filter (!Text.isBlank ·)).countP Text.isQuote := by
    rw [List.countP_filter]
    apply List.countP_congr
    intro c _
    cases blank : Text.isBlank c with
    | true => simp [not_quote_of_blank blank]
    | false => simp
  rw [solid, Text.filter_collapse, ← solid]

theorem paired_collapse (t : Text) : Paired (Text.collapse t) ↔ Paired t := by
  rw [Paired, Paired, quotes_collapse]

theorem paired_leftover (names : ∀ n ∈ known, Plain n) (paired : Paired t) :
    Paired (split known t).leftover :=
  (paired_collapse _).mpr ((paired_reads names (reads_pieces known t)).mpr paired)

end Split

end Scope

end CardCatalog
