import CardCatalog.Index.Segment

/-!
A store as text, the form in which it outlives a run of the program: its columns and,
segment by segment, the cards with the marks that say which are live. The postings are
not kept; they follow from the cards. The search library keeps an index in files of its
own form; this text stands for them.
-/

namespace CardCatalog.Archive

def card (c : Card) : Json :=
  .array [.string c.id, .string c.type, .optional .int c.year, .dict c.fields]

def held (h : Held) : Json := .array [card h.card, .bool h.live]

def segment (s : Segment) : Json := .array (s.held.map held)

def store (s : Store) : Json := .array [.texts s.columns, .array (s.segments.map segment)]

def write (s : Store) : Text := (store s).compact

def items? : Json → Option (List Json)
  | .array items => some items
  | _ => none

def pair? : Json → Option (Json × Json)
  | .array [first, second] => some (first, second)
  | _ => none

def mark? : Json → Option Bool
  | .bool live => some live
  | _ => none

def card? (j : Json) : Option Card :=
  (Entry.ofJson? j).map fun e => ⟨e.id, e.type, e.year, e.fields⟩

def list? {α : Type} (read : Json → Option α) (j : Json) : Option (List α) :=
  (items? j).bind (·.mapM read)

def held? (j : Json) : Option Held := do
  let (card, live) ← pair? j
  return ⟨← card? card, ← mark? live⟩

def segment? (columns : List Text) (j : Json) : Option Segment :=
  (list? held? j).map (Segment.ofHeld columns)

def store? (j : Json) : Option Store := do
  let (columns, segments) ← pair? j
  let columns ← list? Json.text? columns
  return ⟨columns, ← list? (segment? columns) segments⟩

def read? (t : Text) : Option Store := (Json.read? t).bind store?

end CardCatalog.Archive
