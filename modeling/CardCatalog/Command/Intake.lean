import CardCatalog.Command.Files
import CardCatalog.Index.Catalog

/-!
Taking in files of entries, one JSON value a line. A line that is no entry, or that the
collection refuses, is passed over. A file that cannot be opened, or that has a line
which is not text, ends it all; the cards of the lines before it are lost, since they
are committed together once the last file is read. This is the program's `run_index`
between opening the index and saving it. The calls of the search library that add a card
and that commit are taken to succeed.
-/

namespace CardCatalog

inductive IntakeFault where
  | opening (file : Text)
  | reading (file : Text)
  deriving DecidableEq

namespace IntakeFault

def message : IntakeFault → Text
  | opening file => "opening documents file ".toList ++ file
  | reading file => "reading ".toList ++ file

end IntakeFault

structure Intake where
  catalog : Catalog
  added : Nat

namespace Intake

/-- A carriage return at the end of a line is a blank to JSON. -/
def lines (octets : ByteArray) : List ByteArray :=
  (octets.data.toList.splitOn 10).map fun line => ⟨line.toArray⟩

def ofLine? (line : Text) : Option Entry := (Json.read? line).bind Entry.ofJson?

/-- A blank line is passed over like one that is no entry. -/
def line (state : Intake) (text : Text) : Intake :=
  if Text.trim text = [] then state
  else
    match (ofLine? text).map state.catalog.add with
    | some (.ok catalog) => ⟨catalog, state.added + 1⟩
    | _ => state

def lineOf (path : Text) (state : Intake) (octets : ByteArray) : Except IntakeFault Intake :=
  match Text.ofOctets? octets with
  | none => .error (.reading path)
  | some text => .ok (state.line text)

/-- A folder can be opened, but there is nothing in it to read. -/
def file (state : Intake) (path : Text) : Except FileFault ByteArray → Except IntakeFault Intake
  | .error .isFolder => .error (.reading path)
  | .error _ => .error (.opening path)
  | .ok octets => (lines octets).foldlM (lineOf path) state

def commit (state : Intake) : Intake := { state with catalog := state.catalog.commit }

def run (catalog : Catalog) (files : List (Text × Except FileFault ByteArray)) :
    Except IntakeFault Intake :=
  (files.foldlM (fun state given => file state given.1 given.2) ⟨catalog, 0⟩).map commit

end Intake

end CardCatalog
