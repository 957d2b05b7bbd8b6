import CardCatalog.Index.Highlight
import CardCatalog.Proofs.Text.Scan

/-!
A text in which words are marked, read back. Its tags are taken out and its entities
are undone by tables of their own, each from left to right and without a second look
at what was put in. What was escaped comes back as it was, with tags around it or not.
-/

namespace CardCatalog

abbrev Replacements := List (Text × Text)

namespace Replacements

def find (table : Replacements) : Finder Text := fun _ t =>
  (table.find? fun entry => entry.1.isPrefixOf t).map fun entry => (entry.2, entry.1.length)

def put : Piece Text → Text
  | .loose c => [c]
  | .token value _ => value

def apply (table : Replacements) (t : Text) : Text := (Scan.pieces table.find t).flatMap put

/-- In any text the part `w` is read as `v`, and the scan goes on right behind it. -/
def Turns (table : Replacements) (w v : Text) : Prop :=
  ∀ u r, (Scan.behind table.find 0 u.getLast? (w ++ r)).flatMap put =
    v ++ (Scan.behind table.find 0 (u ++ w).getLast? r).flatMap put

section Turns

variable {table : Replacements} {w v : Text}

theorem apply_of_turns (turns : table.Turns w v) : table.apply w = v := by
  have whole := turns [] []
  rwa [List.append_nil, Scan.behind, List.flatMap_nil, List.append_nil] at whole

theorem turns_nil : table.Turns [] [] := by
  intro u r
  simp

theorem turns_append {x y : Text} (first : table.Turns w v) (second : table.Turns x y) :
    table.Turns (w ++ x) (v ++ y) := by
  intro u r
  rw [List.append_assoc, first, second, List.append_assoc, List.append_assoc]

theorem turns_flatMap {α : Type} {f g : α → Text} (xs : List α)
    (each : ∀ x ∈ xs, table.Turns (f x) (g x)) : table.Turns (xs.flatMap f) (xs.flatMap g) := by
  induction xs with
  | nil => exact turns_nil
  | cons x rest ih =>
    have tail := ih fun y member => each y (List.mem_cons_of_mem x member)
    exact turns_append (each x (by simp)) tail

theorem turns_entry (filled : w ≠ [])
    (found : ∀ r, table.find? (fun entry => entry.1.isPrefixOf (w ++ r)) = some (w, v)) :
    table.Turns w v := by
  intro u r
  have token : table.find u.getLast? (w ++ r) = some (v, w.length) := by
    rw [find, found r]
    rfl
  rw [Scan.behind_token filled token]
  rfl

theorem turns_char {c : Char} (other : ∀ entry ∈ table, ∃ d rest, entry.1 = d :: rest ∧ d ≠ c) :
    table.Turns [c] [c] := by
  intro u r
  have nothing : table.find u.getLast? (c :: r) = none := by
    rw [find, Option.map_eq_none_iff, List.find?_eq_none]
    intro entry member
    obtain ⟨d, rest, begins, differs⟩ := other entry member
    simp [begins, List.isPrefixOf, differs]
  rw [List.singleton_append, Scan.behind_loose nothing]
  rfl

theorem turns_self (other : ∀ c ∈ w, ∀ entry ∈ table, ∃ d rest, entry.1 = d :: rest ∧ d ≠ c) :
    table.Turns w w := by
  have chars := turns_flatMap w fun c member => turns_char (other c member)
  rwa [List.flatMap_singleton'] at chars

end Turns

end Replacements

namespace Highlight

open Replacements

def opening : Text := "<b>".toList

def closing : Text := "</b>".toList

def tags : Replacements := [(opening, []), (closing, [])]

def entities : Replacements :=
  [("&amp;".toList, ['&']), ("&lt;".toList, ['<']), ("&gt;".toList, ['>']),
    ("&quot;".toList, ['"']), ("&#x27;".toList, ['\''])]

/-- The text without the tags in it. -/
def untagged (t : Text) : Text := tags.apply t

/-- The text with characters in place of the entities. -/
def unescaped (t : Text) : Text := entities.apply t

/-- Every `<` of the text belongs to a tag, and every tag is one of a pair with no other
one between them. -/
inductive Tagged : Text → Prop where
  | plain {s : Text} (clean : '<' ∉ s) : Tagged s
  | bold {s m rest : Text} (clean : '<' ∉ s) (inside : '<' ∉ m) (more : Tagged rest) :
      Tagged (s ++ opening ++ m ++ closing ++ rest)

theorem Tagged.append_left {s t : Text} (clean : '<' ∉ s) (tagged : Tagged t) :
    Tagged (s ++ t) := by
  cases tagged with
  | plain other => exact .plain fun inside => (List.mem_append.mp inside).elim clean other
  | @bold gap m rest other inside more =>
    have longer : '<' ∉ s ++ gap := fun among => (List.mem_append.mp among).elim clean other
    simpa only [List.append_assoc] using Tagged.bold longer inside more

theorem turns_escape (c : Char) : entities.Turns (escape c) [c] := by
  unfold escape
  split
  -- a character that is written as it is begins no entity, as it is not `&`
  case h_6 differs _ _ _ _ =>
    refine turns_char fun entry member => ?_
    have begins : ∀ entry ∈ entities, ∃ rest, entry.1 = '&' :: rest := by
      simp [entities]
    obtain ⟨rest, same⟩ := begins entry member
    exact ⟨'&', rest, same, fun equal => differs equal.symm⟩
  all_goals exact turns_entry (by simp) fun r => rfl

theorem unescaped_escaped (t : Text) : unescaped (escaped t) = t := by
  have turns := turns_flatMap t fun c _ => turns_escape c
  rw [List.flatMap_singleton'] at turns
  exact apply_of_turns turns

theorem lt_notMem_escaped (t : Text) : '<' ∉ escaped t := by
  intro inside
  obtain ⟨c, _, among⟩ := List.mem_flatMap.mp inside
  unfold escape at among
  split at among
  case h_6 _ differs _ _ _ => exact differs (List.mem_singleton.mp among).symm
  all_goals exact absurd among (by decide)

theorem turns_clean {t : Text} (clean : '<' ∉ t) : tags.Turns t t := by
  refine turns_self fun c member entry listed => ?_
  have begins : ∀ entry ∈ tags, ∃ rest, entry.1 = '<' :: rest := by
    simp [tags, opening, closing]
  obtain ⟨rest, same⟩ := begins entry listed
  exact ⟨'<', rest, same, fun equal => clean (equal ▸ member)⟩

theorem turns_opening : tags.Turns opening [] :=
  turns_entry (by simp [opening]) fun r => rfl

theorem turns_closing : tags.Turns closing [] :=
  turns_entry (by simp [closing]) fun r => rfl

def bold (on : Bool) (t : Text) : Text :=
  if on then opening ++ escaped t ++ closing else escaped t

theorem turns_bold (on : Bool) (t : Text) : tags.Turns (bold on t) (escaped t) := by
  have inner := turns_clean (lt_notMem_escaped t)
  cases on with
  | false => exact inner
  | true =>
    have whole := turns_append (turns_append turns_opening inner) turns_closing
    rwa [List.nil_append, List.append_nil] at whole

def written (on : Text → Bool) (cuts : List (Text × Text)) : Text :=
  cuts.flatMap fun cut => escaped cut.1 ++ bold (on cut.2) cut.2

variable (on : Text → Bool) (cuts : List (Text × Text))

theorem unescaped_untagged_written :
    unescaped (untagged (written on cuts)) = cuts.flatMap fun cut => cut.1 ++ cut.2 := by
  have without : untagged (written on cuts) =
      cuts.flatMap fun cut => escaped cut.1 ++ escaped cut.2 :=
    apply_of_turns <| turns_flatMap cuts fun cut _ =>
      turns_append (turns_clean (lt_notMem_escaped cut.1)) (turns_bold (on cut.2) cut.2)
  have whole : (cuts.flatMap fun cut => escaped cut.1 ++ escaped cut.2) =
      escaped (cuts.flatMap fun cut => cut.1 ++ cut.2) := by
    simp only [escaped, List.flatMap_assoc, List.flatMap_append]
  rw [without, whole, unescaped_escaped]

theorem tagged_written : Tagged (written on cuts) := by
  induction cuts with
  | nil => exact .plain (by simp [written])
  | cons cut rest ih =>
    have gap := lt_notMem_escaped cut.1
    have word := lt_notMem_escaped cut.2
    have first : written on (cut :: rest) =
        escaped cut.1 ++ bold (on cut.2) cut.2 ++ written on rest := List.flatMap_cons
    rw [first, bold]
    split
    · simpa only [List.append_assoc] using Tagged.bold gap word ih
    · rw [List.append_assoc]
      exact .append_left gap (.append_left word ih)

end Highlight

end CardCatalog
