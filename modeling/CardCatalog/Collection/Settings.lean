import CardCatalog.Collection.Config
import CardCatalog.Toml.Reader

/-!
Reading the settings from a TOML document. Unknown keys are passed over, unless they
hold a number that nothing could hold. A document type and a field may also be written
as an array, whose items stand for the keys in their fixed order; what follows behind
them is not looked at. A date in the place of a table counts as one with a single entry.
With `Toml` it stands for the reading in `from_toml_str`: the shapes are those that the
program declares for `RawConfig`, and what fits a shape is decided by the library that
reads it.
-/

namespace CardCatalog.Settings

def count? : Toml → Option Nat
  | .integer n => if 0 ≤ n ∧ n ≤ Word.greatest then some n.toNat else none
  | _ => none

def single (n : Int) : Float32 :=
  let magnitude := Float32.ofScientific n.natAbs false 0
  if n < 0 then -magnitude else magnitude

/-- A whole number has to fit into a word, with or without a sign. -/
def weight? : Toml → Option Float32
  | .float x => some x.toFloat32
  | .integer n => if Word.lowestSigned ≤ n ∧ n ≤ Word.greatest then some (single n) else none
  | _ => none

def list? {α : Type} (read : Toml → Option α) (t : Toml) : Option (List α) :=
  t.items?.bind (·.mapM read)

def dateKey : Text := "$__toml_private_datetime".toList

def dict? : Toml → Option (Dict Text)
  | .table _ entries =>
    (entries.mapM fun (e : Text × Toml) => e.2.text?.map (e.1, ·)).map Dict.ofPairs
  | .date t => some (.ofPairs [(dateKey, t)])
  | _ => none

def othersSound (keys : List String) (entries : Toml.Entries) : Bool :=
  entries.all fun entry => keys.any (·.toList == entry.1) || entry.2.sound

def settled (keys : List String) : Toml → Bool
  | .table _ entries => othersSound keys entries
  | _ => true

def look (t : Toml) (key : String) (place : Nat) : Option Toml :=
  match t with
  | .table _ entries => Toml.find? entries key.toList
  | .array items => items[place]?
  | _ => none

/-- Absent is fine, of the wrong shape is not. -/
def optional {α : Type} (found : Option Toml) (read : Toml → Option α) : Option (Option α) :=
  match found with
  | none => some none
  | some t => (read t).map some

def field? (t : Toml) : Option FieldSpec := do
  guard (settled ["name", "weight"] t)
  let name ← (look t "name" 0).bind Toml.text?
  let weight ← optional (look t "weight" 1) weight?
  return ⟨name, weight⟩

def type? (t : Toml) : Option DocumentType := do
  guard (settled ["name", "title", "fields", "sort_fields", "year_source"] t)
  let name ← (look t "name" 0).bind Toml.text?
  let title ← optional (look t "title" 1) Toml.text?
  let fields ← (look t "fields" 2).bind (list? field?)
  let sortColumns ← optional (look t "sort_fields" 3) dict?
  let yearSource ← optional (look t "year_source" 4) Toml.text?
  return ⟨name, title, fields, sortColumns.getD .empty, yearSource⟩

/-- Ten results on a page and five candidates a word, unless told otherwise. -/
def draft? (entries : Toml.Entries) : Option Draft := do
  guard (othersSound ["page_size", "suggest_size", "suggest_fields", "doctypes"] entries)
  let find (key : String) := Toml.find? entries key.toList
  let pageSize ← optional (find "page_size") count?
  let suggestSize ← optional (find "suggest_size") count?
  let suggestFields ← optional (find "suggest_fields") (list? Toml.text?)
  let types ← (find "doctypes").bind (list? type?)
  return ⟨pageSize.getD 10, suggestSize.getD 5, suggestFields.getD [], types⟩

def read (t : Text) : Except ConfigFault Config :=
  match (Toml.read? t).bind draft? with
  | none => .error .malformed
  | some draft => Config.ofDraft draft

end CardCatalog.Settings
