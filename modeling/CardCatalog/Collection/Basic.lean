import CardCatalog.Collection.DocumentType
import CardCatalog.Query.Compile

/-!
The collection: its document types in order, and what a selection of them lets a query
use. `ofTypes` accepts a list of types or names the first thing that is wrong with it.
This is the program's `Registry` with `new`, `select`, `weighted_fields`,
`all_field_names`, `schema_fields` and `sort_field`; `YearOrder.resolve` is
`resolve_sort`.
-/

namespace CardCatalog

structure Collection where
  types : List DocumentType

namespace Collection

/-- Type by type: a name that an earlier type has, then what is wrong with the
type by itself. -/
def fault : List Text → List DocumentType → Option CollectionFault
  | _, [] => none
  | seen, type :: rest =>
    if type.name ∈ seen then some (.repeatedType type.name)
    else type.fault.or (fault (type.name :: seen) rest)

def ofTypes (types : List DocumentType) : Except CollectionFault Collection :=
  if types.isEmpty then .error .noTypes
  else
    match fault [] types with
    | some f => .error f
    | none => .ok ⟨types⟩

def get? (c : Collection) (name : Text) : Option DocumentType :=
  c.types.find? (·.name == name)

def selected (c : Collection) : List Text → Except CollectionFault (List DocumentType)
  | [] => .ok []
  | name :: rest =>
    match c.get? name with
    | none => .error (.unknownType name)
    | some type => (c.selected rest).map (type :: ·)

/-- Asking for no type selects them all. -/
def select (c : Collection) (names : List Text) : Except CollectionFault (List DocumentType) :=
  if names.isEmpty then .ok c.types else c.selected names

/-- The names of all fields of all types: the text columns of an index. -/
def columns (c : Collection) : List Text :=
  (WordSet.ofList (c.types.flatMap (·.fieldNames))).words

end Collection

namespace Selection

/-- A weight that is not a number gives way to any other. -/
def heavier (a b : Float32) : Float32 :=
  if a.isNaN || a < b then b else a

/-- A field that several types share stands where it first occurs, with its
highest weight. -/
def addWeight (fields : List WeightedField) (name : Text) (weight : Float32) :
    List WeightedField :=
  match fields with
  | [] => [⟨name, weight⟩]
  | field :: rest =>
    if field.name = name then ⟨name, heavier field.weight weight⟩ :: rest
    else field :: addWeight rest name weight

variable (selection : List DocumentType)

def weightedFields : List WeightedField :=
  (selection.flatMap (·.weightedFields)).foldl (fun fields f => addWeight fields f.1 f.2) []

def fieldNames : List Text := (WordSet.ofList (selection.flatMap (·.fieldNames))).words

def searchFields : SearchFields := ⟨fieldNames selection, weightedFields selection⟩

/-- The first type that knows the column decides. -/
def sortTarget (column : Text) : Option Text := selection.findSome? (·.sortTarget column)

end Selection

inductive YearOrder where
  | ascending
  | descending
  deriving DecidableEq

namespace YearOrder

def options : List (Text × Text) :=
  [("jaar".toList, "Jaartal (oplopend)".toList), ("-jaar".toList, "Jaartal (aflopend)".toList)]

def onYear (selection : List DocumentType) (column : Text) : Bool :=
  Selection.sortTarget selection column == some Column.year

def ofKey (selection : List DocumentType) (key : Text) : Option YearOrder :=
  match key with
  | '-' :: column => if onYear selection column then some descending else none
  | column => if onYear selection column then some ascending else none

def keys (spec : Text) : List Text :=
  ((Text.splitOn (· = ',') spec).map Text.trim).filter (!·.isEmpty)

/-- The first key of a comma-separated list that can be sorted on. -/
def resolve (selection : List DocumentType) (spec : Text) : Option YearOrder :=
  (keys spec).findSome? (ofKey selection)

end YearOrder

end CardCatalog
