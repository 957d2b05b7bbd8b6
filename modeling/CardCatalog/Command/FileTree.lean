import CardCatalog.Command.Files

/-!
Files held in memory, as a tree of folders. A place in it is the list of names that lead
there from the root. A path is walked name by name, so whatever is walked through has to
be a folder; how long a name and a whole path may be is bounded. It is a disk as far as
the program sees one.
-/

namespace CardCatalog

inductive FileTree where
  | file (octets : ByteArray)
  | folder (entries : List (Text × FileTree))

namespace FileTree

def nameLimit : Nat := 255

def pathLimit : Nat := 4095

def empty : FileTree := .folder []

def entry? (name : Text) : FileTree → Option FileTree
  | .folder entries => (entries.find? (·.1 == name)).map (·.2)
  | .file _ => none

def node? : List Text → FileTree → Option FileTree
  | [], tree => some tree
  | name :: rest, tree => (tree.entry? name).bind (node? rest)

def setEntry (tree : FileTree) (name : Text) (node : FileTree) : FileTree :=
  match tree with
  | .folder entries => .folder ((name, node) :: entries.filter (·.1 != name))
  | .file octets => .file octets

/-- Folders that are missing on the way are made; below a file nothing is put. -/
def put (tree : FileTree) : List Text → FileTree → FileTree
  | [], node => node
  | name :: rest, node => tree.setEntry name (put ((tree.entry? name).getD empty) rest node)

variable (tree : FileTree)

def step (name : Text) (place : List Text) : Except FileFault (List Text) :=
  match tree.node? place with
  | none => .error .missing
  | some (.file _) => .error .notFolder
  | some (.folder _) =>
    if name = [] ∨ name = ['.'] then .ok place
    else if name = ['.', '.'] then .ok place.dropLast
    else if Text.octetCount name > nameLimit then .error .nameTooLong
    else .ok (place ++ [name])

def steps : List Text → List Text → Except FileFault (List Text)
  | place, [] => .ok place
  | place, name :: rest =>
    match tree.step name place with
    | .error f => .error f
    | .ok next => steps next rest

def names (path : Text) : Except FileFault (List Text) :=
  if path.contains '\x00' then .error .nulInName
  else if Text.octetCount path > pathLimit then .error .nameTooLong
  else .ok (Text.splitOn (· == '/') path)

/-- Where a path leads; whether anything is there is another question. -/
def locate (path : Text) : Except FileFault (List Text) :=
  match names path with
  | .error f => .error f
  | .ok names => if path.isEmpty then .error .missing else tree.steps [] names

def read (path : Text) : Except FileFault ByteArray :=
  match tree.locate path with
  | .error f => .error f
  | .ok place =>
    match tree.node? place with
    | none => .error .missing
    | some (.folder _) => .error .isFolder
    | some (.file octets) => .ok octets

def write (path : Text) (octets : ByteArray) : Except FileFault FileTree :=
  match tree.locate path with
  | .error f => .error f
  | .ok place =>
    match tree.node? place with
    | some (.folder _) => .error .isFolder
    | _ => .ok (tree.put place (.file octets))

/-- Folder by folder; a file in the way stops it, and what was made so far stays. -/
def makeFolders (tree : FileTree) (place : List Text) :
    List Text → FileTree × Except FileFault Unit
  | [] =>
    match tree.node? place with
    | some (.file _) => (tree, .error .alreadyThere)
    | _ => (tree, .ok ())
  | name :: rest =>
    match tree.step name place with
    | .error f => (tree, .error f)
    | .ok next =>
      match tree.node? next with
      | none => makeFolders (tree.put next empty) next rest
      | some _ => makeFolders tree next rest

def makeFolder (path : Text) : FileTree × Except FileFault Unit :=
  match names path with
  | .error f => (tree, .error f)
  | .ok names => makeFolders tree [] names

def withFile (path : Text) (octets : ByteArray) : FileTree :=
  let folder := Text.joined ['/'] (Text.splitOn (· == '/') path).dropLast
  let (tree, _) := tree.makeFolder folder
  match tree.write path octets with
  | .ok tree => tree
  | .error _ => tree

def files : Files (StateM FileTree) where
  read path := do return (← get).read path
  write path octets := do
    match (← get).write path octets with
    | .error f => return .error f
    | .ok tree =>
      set tree
      return .ok ()
  makeFolder path := modifyGet fun tree =>
    let (tree, out) := tree.makeFolder path
    (out, tree)

end FileTree

end CardCatalog
