import CardCatalog.Toml.Scalar

/-!
Reading a TOML 1.1 document. Lines are assignments and headers; arrays and inline tables
run over as many lines as they need, between a key and its value too, and allow a comma
after their last item. Neither brackets nor the names of a key go deeper than eighty.
-/

namespace CardCatalog.Toml

def simpleKey? (t : Text) : Option (Text × Text) :=
  match t with
  | '"' :: rest => basic? (rest.length + 1) rest
  | '\'' :: rest => literal? rest
  | _ =>
    let name := t.takeWhile isBare
    if name.isEmpty then none else some (name, t.drop name.length)

def deepest : Nat := 80

/-- Names with dots between them and blanks around the dots, so many at most. -/
def key? : Nat → Text → Option (List Text × Text)
  | 0, _ => none
  | fuel + 1, t =>
    match simpleKey? (skipGap t) with
    | none => none
    | some (name, rest) =>
      match skipGap rest with
      | '.' :: rest => (key? fuel rest).map fun out => (name :: out.1, out.2)
      | rest => some ([name], rest)

def skipComment? (t : Text) : Option Text :=
  match t with
  | '#' :: rest =>
    let rest := rest.dropWhile isPlain
    if rest.isEmpty || (newline? rest).isSome then some rest else none
  | _ => some t

def lineEnd? (t : Text) : Option Text :=
  (skipComment? (skipGap t)).bind fun rest =>
    if rest.isEmpty then some [] else newline? rest

def skipLines? : Nat → Text → Option Text
  | 0, _ => none
  | fuel + 1, t =>
    match skipComment? (skipGap t) with
    | none => none
    | some rest =>
      match newline? rest with
      | some rest => skipLines? fuel rest
      | none => some rest

/-- Behind the sign between a key and its value, which inside braces may stand on
a line of its own. -/
def assigned? (t : Text) : Option Text :=
  match skipLines? (t.length + 1) t with
  | some ('=' :: rest) => skipLines? (rest.length + 1) rest
  | _ => none

mutual

/-- The first count bounds the brackets that may still open. The second one bounds
the number of steps; a reader that starts with twice the length of the text
never runs out of it. -/
def value? : Nat → Nat → Text → Option (Toml × Text)
  | _, 0, _ => none
  | room, fuel + 1, t =>
    match room, t with
    | 0, '[' :: _ | 0, '\x7b' :: _ => none
    | room + 1, '[' :: rest => (arrayItems? room fuel rest).map fun out => (array out.1, out.2)
    | room + 1, '\x7b' :: rest =>
      (inlineEntries? room fuel rest []).map fun out => (table .inline out.1, out.2)
    | _, '"' :: _ | _, '\'' :: _ => (string? t).map fun out => (string out.1, out.2)
    | _, _ => scalar? t

def arrayItems? : Nat → Nat → Text → Option (List Toml × Text)
  | _, 0, _ => none
  | room, fuel + 1, t =>
    match skipLines? (t.length + 1) t with
    | none => none
    | some (']' :: rest) => some ([], rest)
    | some t =>
      match value? room fuel t with
      | none => none
      | some (item, rest) =>
        match skipLines? (rest.length + 1) rest with
        | some (',' :: rest) => (arrayItems? room fuel rest).map fun out => (item :: out.1, out.2)
        | some (']' :: rest) => some ([item], rest)
        | _ => none

def inlineEntries? : Nat → Nat → Text → Entries → Option (Entries × Text)
  | _, 0, _, _ => none
  | room, fuel + 1, t, entries =>
    match skipLines? (t.length + 1) t with
    | none => none
    | some ('\x7d' :: rest) => some (entries, rest)
    | some t =>
      match key? deepest t with
      | none => none
      | some (key, rest) =>
        match assigned? rest with
        | none => none
        | some rest =>
          match value? room fuel rest with
          | none => none
          | some (value, rest) =>
            match assign [] key value entries with
            | none => none
            | some entries =>
              match skipLines? (rest.length + 1) rest with
              | some (',' :: rest) => inlineEntries? room fuel rest entries
              | some ('\x7d' :: rest) => some (entries, rest)
              | _ => none

end

structure Document where
  root : Entries
  header : List Text

def headed? (change : Text → Entries → Option Entries) (close : Text) (t : Text)
    (doc : Document) : Option (Document × Text) :=
  match key? deepest t with
  | none => none
  | some (key, rest) =>
    if Text.startsWith rest close then
      (lineEnd? (rest.drop close.length)).bind fun rest =>
        (enter change key doc.root).map fun root => (⟨root, key⟩, rest)
    else none

def line? (t : Text) (doc : Document) : Option (Document × Text) :=
  match t with
  | '[' :: '[' :: rest => headed? openItem [']', ']'] rest doc
  | '[' :: rest => headed? openTable [']'] rest doc
  | _ =>
    match key? deepest t with
    | some (key, '=' :: rest) =>
      (value? deepest (2 * rest.length + 2) (skipGap rest)).bind fun (value, rest) =>
        (lineEnd? rest).bind fun rest =>
          (assign doc.header key value doc.root).map fun root => (⟨root, doc.header⟩, rest)
    | _ => none

def lines? : Nat → Text → Document → Option Document
  | 0, _, _ => none
  | fuel + 1, t, doc =>
    match skipLines? (t.length + 1) t with
    | none => none
    | some [] => some doc
    | some t => (line? t doc).bind fun (doc, rest) => lines? fuel rest doc

/-- A byte order mark may open the document. -/
def read? (t : Text) : Option Entries :=
  let t := match t with
    | '\ufeff' :: rest => rest
    | _ => t
  (lines? (t.length + 1) t ⟨[], []⟩).map (·.root)

end CardCatalog.Toml
