import CardCatalog.Collection.Settings
import CardCatalog.Command.Arguments
import CardCatalog.Command.Intake
import CardCatalog.Index.Archive
import CardCatalog.Report

/-!
Running a command. Its settings come from the file that was asked for, else from the one
that the environment names, else from the user's own if there is one, else they are the
built-in ones. Whatever looks at cards first opens the catalog in the data folder and
makes an empty one where there is none. This is the program's `run` with `load`,
`open_index` and `index_dir`. As in `Catalog`, the calls of the search library are taken
to succeed, so `takeIn` fails by its files alone.
-/

namespace CardCatalog

/-- Where a command looks when it is not told. -/
structure Places where
  configVariable : Option Text
  ownConfig : Option Text
  dataFolder : Text

inductive CommandFault where
  | config (fault : ConfigFault)
  | collection (fault : CollectionFault)
  | nothingAsked
  | file (fault : FileFault)
  | mismatch
  | damaged
  | intake (fault : IntakeFault)
  | search (fault : SearchFault)
  | noCard (id : Text)
  deriving DecidableEq

namespace CommandFault

def message : CommandFault → Text
  | config fault => fault.message
  | collection fault => fault.message
  | nothingAsked => "enter a search term".toList
  | file fault => fault.message
  | mismatch => Catalog.mismatchMessage.toList
  | damaged => "the index cannot be read; rebuild it".toList
  | intake fault => fault.message
  | search fault => fault.message
  | noCard id => "no card with id ".toList ++ CollectionFault.tick id

end CommandFault

inductive Output where
  | compiled (query : Compiled)
  | pages (numbers : List Nat)
  | added (count : Nat)
  | outcome (result : Outcome)
  | card (card : Card)
  | counts (counts : CardCounts)

namespace Output

def json (score : Float32 → Json) : Output → Json
  | compiled query => Json.compiled query
  | pages numbers => .array (numbers.map .nat)
  | added count => Json.record [("added", .nat count)]
  | outcome result => Json.outcome score result
  | card c => Json.card c
  | counts c => Json.counts c

def text (output : Output) : Text := (output.json .single).pretty 0 ++ ['\n']

end Output

namespace Command

variable {m : Type → Type} [Monad m] (files : Files m) (places : Places)

abbrev Run (m : Type → Type) := ExceptT CommandFault m

def refuse {α : Type} (fault : CommandFault) : Run m α := throw fault

def settle {α ε : Type} (fault : ε → CommandFault) : Except ε α → Run m α
  | .ok a => pure a
  | .error e => refuse (fault e)

def settings (content : Except FileFault ByteArray) : Except ConfigFault Config :=
  match content with
  | .error fault => .error (.unreadable fault.message)
  | .ok octets =>
    match Text.ofOctets? octets with
    | none => .error (.unreadable FileFault.notText.message)
    | some t => Settings.read t

def absent : Except FileFault ByteArray → Bool
  | .error fault => fault.absent
  | .ok _ => false

def config (asked : Option Text) : Run m Config := do
  match asked.or places.configVariable, places.ownConfig with
  | some path, _ => settle .config (settings (← files.read path))
  | none, none => return .builtin
  | none, some path =>
    let content ← files.read path
    if absent content then return .builtin else settle .config (settings content)

def catalogFolder (data : Text) : Text := Path.inside data ["index", "v1"]

def catalogFile (data : Text) : Text := Path.inside (catalogFolder data) ["catalog.json"]

def save (data : Text) (store : Store) : Run m Unit := do
  settle .file (← files.write (catalogFile data) (Text.toOctets (Archive.write store)))

def openCatalog (collection : Collection) (data : Text) : Run m Catalog := do
  settle .file (← files.makeFolder (catalogFolder data))
  let content ← files.read (catalogFile data)
  if absent content then
    let catalog := Catalog.create collection
    save files data catalog.store
    return catalog
  else
    let octets ← settle .file content
    match (Text.ofOctets? octets).bind Archive.read? with
    | none => refuse .damaged
    | some store =>
      match Catalog.open? collection store with
      | none => refuse .mismatch
      | some catalog => return catalog

def compiled (config : Config) (query : Text) (types : List Text) :
    Except CommandFault Compiled :=
  match config.collection.select types with
  | .error fault => .error (.collection fault)
  | .ok selection =>
    match Query.compile (Selection.searchFields selection) (Text.lower query) with
    | none => .error .nothingAsked
    | some compiled => .ok compiled

def found (catalog : Catalog) (id : Text) : Except CommandFault Card :=
  match catalog.get? id with
  | none => .error (.noCard id)
  | some c => .ok c

def contents (paths : List Text) : Run m (List (Text × Except FileFault ByteArray)) :=
  paths.mapM fun path => do return (path, ← files.read path)

/-- Nothing is saved before every file is taken in. -/
def takeIn (collection : Collection) (data : Text) (paths : List Text) : Run m Nat := do
  let catalog ← openCatalog files collection data
  let taken ← settle .intake (Intake.run catalog (← contents files paths))
  save files data taken.catalog.store
  return taken.added

def run (invocation : Invocation) : Run m Output := do
  let config := config files places invocation.configFile
  let data := invocation.dataFolder.getD places.dataFolder
  match invocation.command with
  | .compile query types => return .compiled (← settle id (compiled (← config) query types))
  | .pages total page (some pageSize) =>
    return .pages (Paging.pages (Paging.window total page pageSize))
  | .pages total page none =>
    return .pages (Paging.pages (Paging.window total page (← config).pageSize))
  | .index paths => return .added (← takeIn files (← config).collection data paths)
  | .search params =>
    let config ← config
    let catalog ← openCatalog files config.collection data
    return .outcome (← settle .search (Search.run config catalog params))
  | .card wanted =>
    let catalog ← openCatalog files (← config).collection data
    return .card (← settle id (found catalog wanted))
  | .stats =>
    let catalog ← openCatalog files (← config).collection data
    return .counts catalog.counts

end Command

end CardCatalog
