import Mathlib.Data.List.TakeWhile
import CardCatalog.Proofs.Index.Runs
import CardCatalog.Proofs.Query.ItemYears
import CardCatalog.Proofs.Query.Phrases

/-!
A query that is one segment, and one that is a quotation. The latter has no years and
no scopes, whatever stands between the quotes, and asks for one phrase. The blanks of
the quotation may come out differently, but its runs are those that were written.
-/

namespace CardCatalog

namespace Text

theorem stripped_split (p : Char → Bool) (t : Text) :
    ∃ before after, t = before ++ stripped p t ++ after ∧ (∀ c ∈ before, p c = true) ∧
      ∀ c ∈ after, p c = true := by
  refine ⟨t.takeWhile p, ((t.dropWhile p).reverse.takeWhile p).reverse, ?_, ?_, ?_⟩
  · have ends := @List.takeWhile_append_dropWhile _ p (t.dropWhile p).reverse
    have back := congrArg List.reverse ends
    rw [List.reverse_append, List.reverse_reverse] at back
    rw [List.append_assoc, stripped, back, List.takeWhile_append_dropWhile]
  · exact List.all_eq_true.mp List.all_takeWhile
  · intro c member
    exact List.all_eq_true.mp List.all_takeWhile c (List.mem_reverse.mp member)

theorem words_blanks {before : Text} (blank : ∀ c ∈ before, isBlank c = true) (t : Text) :
    words (before ++ t) = words t := by
  induction before with
  | nil => rfl
  | cons c rest ih =>
    have tail := ih fun d member => blank d (List.mem_cons_of_mem c member)
    exact (words_append (blank c (by simp)) [] (rest ++ t)).trans tail

theorem words_padded {before t after : Text} (starts : ∀ c ∈ before, isBlank c = true)
    (ends : ∀ c ∈ after, isBlank c = true) : words (before ++ t ++ after) = words t := by
  rw [List.append_assoc, words_blanks starts]
  cases after with
  | nil => rw [List.append_nil]
  | cons c rest =>
    have none := words_blanks (fun d member => ends d (List.mem_cons_of_mem c member)) []
    rw [List.append_nil] at none
    rw [words_append (ends c (by simp)), none]
    exact List.append_nil _

theorem words_trim (t : Text) : words (trim t) = words t := by
  obtain ⟨before, after, split, starts, ends⟩ := stripped_split isBlank t
  have padded := @words_padded before (trim t) after starts ends
  rw [trim, ← split] at padded
  exact padded.symm

theorem filter_joined (ws : List Text) :
    (joined [' '] ws).filter (!isBlank ·) = ws.flatten.filter (!isBlank ·) := by
  cases ws with
  | nil => rfl
  | cons w rest =>
    rw [joined_cons, List.flatten_cons, List.filter_append, List.filter_append]
    congr 1
    induction rest with
    | nil => rfl
    | cons v more ih =>
      rw [List.flatMap_cons, List.flatten_cons, List.filter_append, List.filter_append, ih]
      simp [space_blank]

theorem filter_collapse (t : Text) : (collapse t).filter (!isBlank ·) = t.filter (!isBlank ·) := by
  rw [collapse, filter_joined, words, List.flatten_filter_not_isEmpty, flatten_splitOn]
  simp

theorem trim_ne_nil {t : Text} {c : Char} (inside : c ∈ t) (solid : isBlank c = false) :
    trim t ≠ [] := by
  obtain ⟨before, after, split, starts, ends⟩ := stripped_split isBlank t
  intro empty
  rw [trim] at empty
  rw [split, empty, List.append_nil] at inside
  rcases List.mem_append.mp inside with early | late
  · rw [starts c early] at solid
    cases solid
  · rw [ends c late] at solid
    cases solid

theorem mem_collapse {t : Text} {c : Char} (inside : c ∈ t) (solid : isBlank c = false) :
    c ∈ collapse t := by
  have kept : c ∈ t.filter (!isBlank ·) := List.mem_filter.mpr ⟨inside, by simp [solid]⟩
  rw [← filter_collapse] at kept
  exact (List.mem_filter.mp kept).1

theorem trim_eq_nil {t : Text} (none : words t = []) : trim t = [] := by
  have blank : ∀ c ∈ t, isBlank c = true := by
    intro c inside
    by_contra solid
    have kept := mem_collapse inside (Bool.not_eq_true _ |>.mp solid)
    rw [collapse, none] at kept
    cases kept
  rw [trim, stripped, List.dropWhile_eq_nil_iff.mpr blank]
  rfl

theorem collapse_quoted {t : Text} (free : Scope.Unquoted t) :
    ∃ v, collapse (Query.Item.quoted t) = Query.Item.quoted v ∧ Scope.Unquoted v := by
  have kept : (collapse (Query.Item.quoted t)).filter (!isBlank ·) =
      '"' :: (t.filter (!isBlank ·) ++ ['"']) := by
    have solid : isBlank '"' = false := quote_solid '"' (by simp)
    simp [filter_collapse, Query.Item.quoted, solid]
  have first := joined_head fun _ member => mem_words (t := Query.Item.quoted t) member
  have last := joined_last fun _ member => mem_words (t := Query.Item.quoted t) member
  rw [← collapse] at first last
  -- only blanks go, and neither end is blank, so the quotes are still the two ends
  generalize collapse (Query.Item.quoted t) = r at kept first last
  cases r with
  | nil => cases kept
  | cons c rest =>
    rw [List.filter_cons_of_pos (by simp [first c rfl])] at kept
    obtain ⟨rfl, inner⟩ := List.cons.inj kept
    rcases List.eq_nil_or_concat' rest with rfl | ⟨v, d, rfl⟩
    · simp at inner
    · have solid : isBlank d = false := by
        apply last
        rw [← List.cons_append, List.getLast?_concat]
      rw [List.filter_append, List.filter_singleton] at inner
      simp only [solid, Bool.not_false] at inner
      obtain ⟨same, quote⟩ := List.append_inj' inner rfl
      refine ⟨v, ?_, fun c inside => ?_⟩
      · rw [List.singleton_inj.mp quote]
        rfl
      · cases quoted : isQuote c with
        | false => rfl
        | true =>
          have among : c ∈ v.filter (!isBlank ·) := by
            rw [List.mem_filter, Scope.isQuote_iff.mp quoted]
            exact ⟨Scope.isQuote_iff.mp quoted ▸ inside, by simp [quote_solid '"']⟩
          rw [same] at among
          rw [free c (List.mem_filter.mp among).1] at quoted
          cases quoted

end Text

def Plan.phrase (text : Text) (fields : List WeightedField) : Plan :=
  ⟨[[.one (.phrase text fields)]], none⟩

namespace Query

open Scope

section Single

variable {t : Text} (plain : ¬ HasYears t)
include plain

theorem extract_plain : YearRange.extract t = (none, t) := by
  have pieces := Scan.pieces_of_emits (emits_plain plain)
  simp [YearRange.extract, pieces, Scan.values_loose]

theorem compile_single (single : ∀ c ∈ t, isAnd c = false) (fields : SearchFields) :
    compile fields t = (Plan.ofGroups [group fields (Text.trim t)] none).map fun plan =>
      ⟨plan, WordSet.ofList (keywords fields (Text.trim t))⟩ := by
  have whole : Text.splitOn isAnd t = [t] := Text.splitOn_eq_self single
  rw [compile, extract_plain plain]
  cases trimmed : Text.trim t with
  | nil =>
    have nothing : segments t = [] := by rw [segments, whole, List.map_singleton, trimmed]; rfl
    simp only [nothing]
    rfl
  | cons c rest =>
    have one : segments t = [c :: rest] := by
      rw [segments, whole, List.map_singleton, trimmed]
      rfl
    simp only [one, List.map_singleton, List.flatMap_singleton]

end Single

theorem runs_quoted (t : Text) : Analysis.runs (Item.quoted t) = Analysis.runs t := by
  have gap : Analysis.isGap '"' = true := by decide +kernel
  have front := Analysis.runs_gap gap [] (t ++ ['"'])
  have back := Analysis.runs_gap gap t []
  rw [List.nil_append, back] at front
  simpa [Item.quoted, Analysis.runs_nil] using front

section Quotation

variable {t : Text} (free : Unquoted t)
include free

theorem pieces_quoted :
    Scan.pieces Phrase.find (Item.quoted t) = [.token (Text.trim t) (Item.quoted t)] := by
  have reads := Phrase.Reads.quotation free .done
  rw [List.append_nil] at reads
  exact Phrase.pieces_of_reads reads

theorem compile_quoted (weighted : List WeightedField) (some : Text.trim t ≠ []) :
    Phrase.compile weighted (Item.quoted t) = Option.some (.one (.phrase (Text.trim t) weighted)) := by
  have nothing : Phrase.leftover [.token (Text.trim t) (Item.quoted t)] = [] := rfl
  rw [Phrase.compile, Phrase.leaves, pieces_quoted free]
  simp [nothing, Scan.values, Piece.value?, some, Clause.ofLeaves]

theorem split_quoted (known : List Text) :
    Scope.split known (Item.quoted t) = ⟨[], Text.collapse (Item.quoted t)⟩ := by
  have closed : quotation? (Item.quoted t) = some (Item.quoted t) := quotation_closed free
  have found : Scope.find known none (Item.quoted t ++ []) =
      some (.quotation, (Item.quoted t).length) := by
    rw [List.append_nil]
    exact find_quotation none closed
  have token := Scan.behind_token (u := []) (by simp [Item.quoted]) found
  rw [List.append_nil] at token
  have pieces : Scan.pieces (Scope.find known) (Item.quoted t) =
      [.token .quotation (Item.quoted t)] := token
  simp [Scope.split, pieces, Scan.values, Piece.value?, scopeOf, leftoverOf]

theorem parts_quoted (fields : SearchFields) :
    ∃ v, parts fields (Item.quoted t) = ⟨[], Item.quoted v⟩ ∧ Unquoted v ∧
      Analysis.runs v = Analysis.runs t := by
  by_cases colon : (Item.quoted t).contains ':' = true
  · obtain ⟨v, same, unquoted⟩ := Text.collapse_quoted free
    refine ⟨v, ?_, unquoted, ?_⟩
    · rw [parts, if_pos colon, split_quoted free, same]
    · rw [← runs_quoted v, ← runs_quoted t, ← same]
      exact Analysis.runs_of_words (Text.words_collapse _)
  · exact ⟨t, by rw [parts, if_neg colon], free, rfl⟩

omit free in
theorem trim_quoted (t : Text) : Text.trim (Item.quoted t) = Item.quoted t := by
  have solid : Text.isBlank '"' = false := Text.quote_solid '"' (by simp)
  have last : (Item.quoted t).getLast? = some '"' := by
    rw [Item.quoted, List.getLast?_concat]
  have bare := @Text.stripped_between Text.isBlank [] (Item.quoted t) [] (by simp)
    (by simp [Item.quoted, solid]) (by simp [last, solid]) (by simp)
  rw [List.append_nil, List.nil_append] at bare
  exact bare

omit free in
theorem single_quoted (single : ∀ c ∈ t, isAnd c = false) :
    ∀ c ∈ Item.quoted t, isAnd c = false := by
  intro c member
  have cases : c = '"' ∨ c ∈ t := by simpa [Item.quoted, or_comm] using member
  rcases cases with rfl | inside
  · decide
  · exact single c inside

theorem compile_quotation (single : ∀ c ∈ t, isAnd c = false) (plain : ¬ HasYears t)
    (some : Analysis.runs t ≠ []) (fields : SearchFields) :
    ∃ v, Analysis.runs v = Analysis.runs t ∧
      compile fields (Item.quoted t) =
        Option.some ⟨.phrase v fields.weighted, WordSet.ofList (keywords fields (Item.quoted t))⟩ := by
  obtain ⟨v, cut, unquoted, same⟩ := parts_quoted free fields
  have runs : Analysis.runs (Text.trim v) = Analysis.runs t :=
    (Analysis.runs_of_words (Text.words_trim v)).trans same
  have filled : Text.trim v ≠ [] := by
    intro empty
    rw [empty] at runs
    exact some runs.symm
  have group : group fields (Item.quoted t) = [.one (.phrase (Text.trim v) fields.weighted)] := by
    simp [group, cut, compile_quoted unquoted fields.weighted filled]
  refine ⟨Text.trim v, runs, ?_⟩
  rw [compile_single (quoted_plain plain) (single_quoted single), trim_quoted, group]
  rfl

end Quotation

end Query

end CardCatalog
