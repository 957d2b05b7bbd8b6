import CardCatalog.Text.Scan

/-!
Field scopes: `name:word` and `name:"several words"` restrict a value to one known
field. A scope starts the text or follows a blank, the longest name that fits is meant,
and a quotation that closes hides whatever is inside it. The name `alles` stands for all
fields: its value goes back into the text around it. This is the program's
`FieldScopeSplitter` with `new` and `split`.
-/

namespace CardCatalog

structure FieldScope where
  field : Text
  value : Text
  deriving DecidableEq

structure Scoped where
  -- in the order of the text
  scopes : List FieldScope
  -- the words outside every scope, single-spaced
  leftover : Text

namespace Scope

def everyField : Text := "alles".toList

inductive Mark where
  | quotation
  | scope (field raw : Text)

def longest : List Text → Option Text
  | [] => none
  | name :: rest =>
    match longest rest with
    | some other => if name.length < other.length then some other else some name
    | none => some name

/-- Without a name there is no scope, so the empty name is never one. -/
def fits (t name : Text) : Bool := !name.isEmpty && Text.startsWith t (name ++ [':'])

def nameAt (known : List Text) (t : Text) : Option Text :=
  longest ((everyField :: known).filter (fits t))

/-- A quotation reaches from its opening quote through the next one. -/
def quotation? : Text → Option Text
  | [] => none
  | c :: rest =>
    if Text.isQuote c && rest.any Text.isQuote then
      some (c :: rest.takeWhile (!Text.isQuote ·) ++ [c])
    else none

/-- What stands behind the colon: a quotation, or a run without blanks and quotes. -/
def rawValue (t : Text) : Text :=
  (quotation? t).getD (t.takeWhile fun c => !Text.isBlank c && !Text.isQuote c)

def scopeAt (known : List Text) (t : Text) : Option (Mark × Nat) :=
  (nameAt known t).map fun name =>
    let raw := rawValue (t.drop (name.length + 1))
    (.scope name raw, name.length + 1 + raw.length)

/-- The blank before a name belongs to the mark. A quotation that starts here
comes first, so names inside it are never looked at. -/
def find (known : List Text) : Finder Mark
  | _, [] => none
  | before, c :: rest =>
    match quotation? (c :: rest) with
    | some raw => some (.quotation, raw.length)
    | none =>
      let start := if before.isNone then scopeAt known (c :: rest) else none
      match start with
      | some found => some found
      | none =>
        if Text.isBlank c then (scopeAt known rest).map fun found => (found.1, found.2 + 1)
        else none

def inner (raw : Text) : Text := Text.trim (Text.stripped Text.isQuote raw)

def scopeOf : Mark → Option FieldScope
  | .quotation => none
  | .scope name raw =>
    if name = everyField ∨ inner raw = [] then none else some ⟨name, inner raw⟩

/-- A value for all fields keeps its quotes, so it is still a phrase afterwards.
Blanks on both sides keep it apart from its neighbours. -/
def leftoverOf : Piece Mark → Text
  | .loose c => [c]
  | .token .quotation raw => raw
  | .token (.scope name raw) _ =>
    if name = everyField ∧ inner raw ≠ [] then ' ' :: raw ++ [' '] else [' ']

def split (known : List Text) (t : Text) : Scoped :=
  let ps := Scan.pieces (find known) t
  { scopes := (Scan.values ps).filterMap scopeOf
    leftover := Text.collapse (ps.flatMap leftoverOf) }

end Scope

end CardCatalog
