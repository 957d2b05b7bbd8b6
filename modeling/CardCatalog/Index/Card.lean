import CardCatalog.Collection.Basic
import CardCatalog.Json

/-!
Cards. An entry is a card as it is handed in; what is stored of it are the trimmed
values of the fields that its document type has, blank ones left out, and its year,
given or derived from the type's year source. An entry is a `DocumentInput`, and
`Entry.card?` is `add_document` up to where it hands the card to the search library.
-/

namespace CardCatalog

structure Entry where
  id : Text
  type : Text
  year : Option Int
  fields : Dict Text

structure Card where
  id : Text
  type : Text
  year : Option Int
  fields : Dict Text

inductive EntryFault where
  | unknownType (type : Text)
  | blankId (type : Text)
  deriving DecidableEq

namespace EntryFault

def message : EntryFault → Text
  | unknownType type => "unknown document type ".toList ++ CollectionFault.tick type
  | blankId type =>
    "document of type ".toList ++ CollectionFault.tick type ++ " has no id".toList

end EntryFault

namespace Entry

variable (entry : Entry)

def storedFields (type : DocumentType) : Dict Text :=
  entry.fields.filterMap fun name value =>
    let value := Text.trim value
    if value.isEmpty || !type.fieldNames.contains name then none else some value

/-- The year source counts as it was given, whether or not it is stored. -/
def storedYear (type : DocumentType) : Option Int :=
  entry.year.or <|
    (type.yearSource.bind entry.fields.get?).bind fun date => yearOfDate (Text.trim date)

def card? (collection : Collection) : Except EntryFault Card :=
  match collection.get? entry.type with
  | none => .error (.unknownType entry.type)
  | some type =>
    if (Text.trim entry.id).isEmpty then .error (.blankId entry.type)
    else .ok ⟨entry.id, type.name, entry.storedYear type, entry.storedFields type⟩

def year? : Json → Option (Option Int)
  | .null => some none
  | j => j.word?.map some

def fields? : Json → Option (Dict Text)
  | .object members =>
    (members.mapM fun (m : Text × Json) => m.2.text?.map (m.1, ·)).map Dict.ofPairs
  | _ => none

/-- A member that is repeated makes an object ambiguous. -/
def once? (members : List (Text × Json)) (name : String) : Option (Option Json) :=
  match members.filter (·.1 == name.toList) with
  | [] => some none
  | [m] => some (some m.2)
  | _ => none

/-- An object with the members of an entry, of which the year and the fields may
be missing and others are ignored, or the array of their values. -/
def ofJson? : Json → Option Entry
  | .object members => do
    let id ← (← once? members "id").bind Json.text?
    let type ← (← once? members "doctype").bind Json.text?
    let year ← ((← once? members "year").map year?).getD (some none)
    let fields ← ((← once? members "fields").map fields?).getD (some .empty)
    return ⟨id, type, year, fields⟩
  | .array [id, type] => do return ⟨← id.text?, ← type.text?, none, .empty⟩
  | .array [id, type, year] => do return ⟨← id.text?, ← type.text?, ← year? year, .empty⟩
  | .array [id, type, year, fields] => do
    return ⟨← id.text?, ← type.text?, ← year? year, ← fields? fields⟩
  | _ => none

end Entry

end CardCatalog
