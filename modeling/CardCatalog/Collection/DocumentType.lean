import CardCatalog.Dict

/-!
Document types. A collection holds several kinds of cards, each with fields of its own.
A field with a weight takes part in free-text search; every field can be named in a
query. Three column names belong to the index itself and are no field names, and the
year is the only column to sort by. A type is a `DocType` with its `validate`, a fault a
`RegistryError`, and `yearOfDate` is `derive_year`.
-/

namespace CardCatalog

namespace Column

def year : Text := "jaar".toList
def id : Text := "id".toList
def documentType : Text := "doctype".toList

def reserved : List Text := [year, id, documentType]

end Column

structure FieldSpec where
  name : Text
  weight : Option Float32

structure DocumentType where
  name : Text
  title : Option Text
  fields : List FieldSpec
  -- column name and the column it sorts on
  sortColumns : Dict Text
  -- the field whose first four digits give the year of a card
  yearSource : Option Text

inductive CollectionFault where
  | noTypes
  | repeatedType (type : Text)
  | reservedField (type field : Text)
  | repeatedField (type field : Text)
  | unsortableTarget (type column target : Text)
  | unknownYearSource (type field : Text)
  | unknownType (type : Text)
  deriving DecidableEq

namespace CollectionFault

def tick (t : Text) : Text := '\x60' :: t ++ ['\x60']

def aboutType (type : Text) : Text := "document type ".toList ++ tick type

def message : CollectionFault → Text
  | noTypes => "no document types configured".toList
  | repeatedType type => aboutType type ++ " is defined more than once".toList
  | reservedField type field =>
    aboutType type ++ ": field name ".toList ++ tick field ++ " is reserved".toList
  | repeatedField type field =>
    aboutType type ++ ": field ".toList ++ tick field ++ " is listed twice".toList
  | unsortableTarget type column target =>
    aboutType type ++ ": sort column ".toList ++ tick column ++ " targets ".toList ++
      tick target ++ ", only ".toList ++ tick Column.year ++ " is sortable".toList
  | unknownYearSource type field =>
    aboutType type ++ ": year source ".toList ++ tick field ++
      " is not one of its fields".toList
  | unknownType type => "unknown document type: ".toList ++ type

end CollectionFault

namespace DocumentType

variable (type : DocumentType)

def shownTitle : Text := type.title.getD type.name

def fieldNames : List Text := type.fields.map (·.name)

def weightedFields : List (Text × Float32) :=
  type.fields.filterMap fun field => field.weight.map (field.name, ·)

/-- The year column can always be sorted on, unless the type maps its name
elsewhere. -/
def sortTarget (column : Text) : Option Text :=
  (type.sortColumns.get? column).or (if column = Column.year then some Column.year else none)

def fieldFault : List Text → List FieldSpec → Option CollectionFault
  | _, [] => none
  | seen, field :: rest =>
    if field.name ∈ Column.reserved then some (.reservedField type.name field.name)
    else if field.name ∈ seen then some (.repeatedField type.name field.name)
    else fieldFault (field.name :: seen) rest

def sortFault : Option CollectionFault :=
  (type.sortColumns.entries.find? (·.2 != Column.year)).map fun entry =>
    .unsortableTarget type.name entry.1 entry.2

def yearFault : Option CollectionFault :=
  (type.yearSource.filter (!type.fieldNames.contains ·)).map (.unknownYearSource type.name)

def fault : Option CollectionFault :=
  (type.fieldFault [] type.fields).or (type.sortFault.or type.yearFault)

end DocumentType

/-- The year of a date that starts with it, such as 1513-04-01. Only years
strictly between 1000 and 2000 count. -/
def yearOfDate (date : Text) : Option Int :=
  let head := date.take 4
  if head.length = 4 ∧ head.all Text.isDigit then
    let year := Text.number head
    if 1000 < year ∧ year < 2000 then some year else none
  else none

end CardCatalog
