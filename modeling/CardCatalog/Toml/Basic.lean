import CardCatalog.Dict

/-!
TOML documents as trees. A table remembers how it came to be, because that
decides who may add to it later: a written header may complete a table that was
only implied by a longer header, a dotted key may go on in such a table too and
makes it its own, and an inline table is closed with its brace.
-/

namespace CardCatalog

inductive Toml.Origin where
  | inline
  | header
  | implied
  | dotted
  deriving DecidableEq

inductive Toml where
  | string (t : Text)
  | integer (n : Int)
  | float (x : Float)
  -- a decimal fraction beyond every finite number
  | boundless
  | boolean (b : Bool)
  | date (t : Text)
  | array (items : List Toml)
  | table (origin : Toml.Origin) (entries : List (Text × Toml))
  -- an array that headers in double brackets built, one table each
  | tables (items : List (List (Text × Toml)))

namespace Toml

abbrev Entries := List (Text × Toml)

def find? (entries : Entries) (key : Text) : Option Toml :=
  (entries.find? (·.1 == key)).map (·.2)

def replace (entries : Entries) (key : Text) (value : Toml) : Entries :=
  entries.map fun entry => if entry.1 = key then (key, value) else entry

def addNew (key : Text) (value : Toml) (entries : Entries) : Option Entries :=
  if (find? entries key).isSome then none else some (entries ++ [(key, value)])

/-- Walks down a path and changes the table at its end; tables that are missing
on the way are made. In an array of tables the way leads through the last one. A
dotted key does not enter a table that has a header and does not end in one of
an array; a table that was only implied it takes over. -/
def alter (dotted : Bool) : List Text → (Entries → Option Entries) → Entries → Option Entries
  | [], change, entries => change entries
  | key :: rest, change, entries =>
    match find? entries key with
    | none =>
      (alter dotted rest change []).map fun sub =>
        entries ++ [(key, .table (if dotted then .dotted else .implied) sub)]
    | some (.table origin sub) =>
      if origin = .inline || (dotted && origin = .header) then none
      else
        (alter dotted rest change sub).map fun sub =>
          replace entries key (.table (if dotted then .dotted else origin) sub)
    | some (.tables items) =>
      if dotted && rest.isEmpty then none
      else
        match items.getLast? with
        | none => none
        | some last =>
          (alter dotted rest change last).map fun sub =>
            replace entries key (.tables (items.dropLast ++ [sub]))
    | some _ => none

def assign (header key : List Text) (value : Toml) (root : Entries) : Option Entries :=
  match key.getLast? with
  | none => none
  | some name => alter false header (alter true key.dropLast (addNew name value)) root

def openTable (name : Text) (entries : Entries) : Option Entries :=
  match find? entries name with
  | none => some (entries ++ [(name, .table .header [])])
  | some (.table .implied sub) => some (replace entries name (.table .header sub))
  | some _ => none

def openItem (name : Text) (entries : Entries) : Option Entries :=
  match find? entries name with
  | none => some (entries ++ [(name, .tables [[]])])
  | some (.tables items) => some (replace entries name (.tables (items ++ [[]])))
  | some _ => none

def enter (change : Text → Entries → Option Entries) (header : List Text) (root : Entries) :
    Option Entries :=
  match header.getLast? with
  | none => none
  | some name => alter false header.dropLast (change name) root

def holdable (n : Int) : Bool :=
  -0x80000000000000000000000000000000 ≤ n && n ≤ 0xFFFFFFFFFFFFFFFFFFFFFFFFFFFFFFFF

mutual

def sound : Toml → Bool
  | integer n => holdable n
  | boundless => false
  | array items => soundItems items
  | table _ entries => soundEntries entries
  | tables items => soundTables items
  | _ => true

def soundItems : List Toml → Bool
  | [] => true
  | item :: rest => sound item && soundItems rest

def soundEntries : List (Text × Toml) → Bool
  | [] => true
  | (_, value) :: rest => sound value && soundEntries rest

def soundTables : List (List (Text × Toml)) → Bool
  | [] => true
  | entries :: rest => soundEntries entries && soundTables rest

end

def text? : Toml → Option Text
  | string t => some t
  | _ => none

def items? : Toml → Option (List Toml)
  | array items => some items
  | tables items => some (items.map (table .header))
  | _ => none

end Toml

end CardCatalog
