import CardCatalog.Collection.Basic

/-!
The settings of a search: the collection and how much of a result is shown. A draft
holds the values as they were given; `ofDraft` checks them in a fixed order and keeps
them as they are. This is the program's `Config` with `builtin` and what `from_toml_str`
checks once a document is read.
-/

namespace CardCatalog

structure Config where
  -- results on a page
  pageSize : Nat
  -- spelling candidates for each word and field
  suggestSize : Nat
  -- the fields whose words serve as spelling candidates
  suggestFields : List Text
  collection : Collection

structure Draft where
  pageSize : Nat
  suggestSize : Nat
  suggestFields : List Text
  types : List DocumentType

inductive ConfigFault where
  | unreadable (cause : Text)
  | malformed
  | pageSizeZero
  | collection (fault : CollectionFault)
  | unknownSuggestField (field : Text)
  deriving DecidableEq

namespace ConfigFault

def message : ConfigFault → Text
  | unreadable cause => "Failed to read config file: ".toList ++ cause
  | malformed => "Failed to parse config TOML".toList
  | pageSizeZero => "Validation error: page_size must be at least 1".toList
  | collection fault => "Invalid document types: ".toList ++ fault.message
  | unknownSuggestField field =>
    "Validation error: suggest field ".toList ++ CollectionFault.tick field ++
      " is not a field of any document type".toList

end ConfigFault

namespace Config

def ofDraft (draft : Draft) : Except ConfigFault Config :=
  if draft.pageSize = 0 then .error .pageSizeZero
  else
    match Collection.ofTypes draft.types with
    | .error f => .error (.collection f)
    | .ok collection =>
      match draft.suggestFields.find? (!collection.columns.contains ·) with
      | some field => .error (.unknownSuggestField field)
      | none => .ok ⟨draft.pageSize, draft.suggestSize, draft.suggestFields, collection⟩

def weighted (name : String) (weight : Float32) : FieldSpec := ⟨name.toList, some weight⟩

def dated (name title : String) (fields : List FieldSpec) : DocumentType :=
  { name := name.toList
    title := some title.toList
    fields
    sortColumns := .ofPairs [("datum".toList, Column.year)]
    yearSource := some "datum".toList }

def nameIndex : DocumentType :=
  dated "namenindex" "Namenindex"
    [weighted "naam" 3, weighted "datum" 1, weighted "inhoud" 1, weighted "bron" 1,
      weighted "getuigen" 1, ⟨"bijzonderheden".toList, none⟩]

def transferRegister : DocumentType :=
  dated "transportregister" "Transportregister"
    [weighted "datum" 1, weighted "verkoper" 2, weighted "koper" 2, weighted "inhoud" 1,
      weighted "bron" 1, weighted "getuigen" 1]

def builtin : Config :=
  { pageSize := 10
    suggestSize := 5
    suggestFields := ["naam", "inhoud", "bron", "getuigen"].map String.toList
    collection := ⟨[nameIndex, transferRegister]⟩ }

end Config

end CardCatalog
