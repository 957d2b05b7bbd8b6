import CardCatalog.Search

/-!
Reading a command line. An option is `--name value` or `--name=value`, a flag has no
value, and everything else is an operand; behind `--` there are only operands. The
general options may stand before the command or behind it, where they count more; the
others belong to one command. Only `--doctype` may be repeated. What does not fit is
refused as a whole. The options are those that `Cli` and `Commands` declare; how they
are written is the affair of the library for command lines.
-/

namespace CardCatalog

inductive Command where
  | compile (query : Text) (types : List Text)
  | pages (total page : Nat) (pageSize : Option Nat)
  | index (files : List Text)
  | search (params : SearchParams)
  | card (id : Text)
  | stats

structure Invocation where
  command : Command
  configFile : Option Text
  dataFolder : Option Text

namespace Arguments

inductive Kind where
  | flag
  | text
  -- not empty
  | path
  -- takes whatever comes next, even if it looks like an option
  | anything
  deriving DecidableEq

abbrev Options := List (String × Kind)

structure Setting where
  name : Text
  value : Text

def general : Options := [("config", .path), ("data-dir", .path), ("verbose", .flag)]

def options? (command : Text) : Option Options :=
  match String.ofList command with
  | "compile" => some [("doctype", .text)]
  | "pages" => some [("total", .text), ("page", .text), ("page-size", .text)]
  | "search" => some [("doctype", .text), ("sort", .anything), ("page", .text)]
  | "index" | "show" | "stats" => some []
  | _ => none

inductive Shape where
  | operand
  | terminator
  | option (name : Text) (attached : Option Text)

def long (t : Text) : Shape :=
  match t.span (· != '=') with
  | (name, _ :: value) => .option name (some value)
  | (name, []) => .option name none

/-- A hyphen alone is an operand; the one short name is a flag. -/
def shape : Text → Shape
  | ['-', '-'] => .terminator
  | '-' :: '-' :: rest => long rest
  | ['-', 'v'] => .option "verbose".toList none
  | '-' :: c :: rest => .option ('-' :: c :: rest) none
  | _ => .operand

def isOperand (arg : Text) : Bool :=
  match shape arg with
  | .operand => true
  | _ => false

/-- The value of an option, attached to it or the argument behind it, and whether
that one is used up. -/
def value? (kind : Kind) (attached next : Option Text) : Option (Text × Bool) :=
  match kind, attached, next with
  | .flag, none, _ => some ([], false)
  | .flag, some _, _ => none
  | _, some value, _ => some (value, false)
  | .anything, none, some value => some (value, true)
  | _, none, some value => if isOperand value then some (value, true) else none
  | _, none, none => none

def setting? (options : Options) (name : Text) (attached next : Option Text) :
    Option (Setting × Bool) := do
  let (_, kind) ← options.find? (·.1.toList == name)
  let (value, used) ← value? kind attached next
  if kind = .path ∧ value = [] then none else some (⟨name, value⟩, used)

def front : List Text → Option (List Setting × Text × List Text)
  | [] => none
  | arg :: rest =>
    match shape arg with
    | .terminator => none
    | .operand => some ([], arg, rest)
    | .option name attached =>
      match setting? general name attached rest.head?, rest with
      | some (s, true), _ :: rest => (front rest).map fun found => (s :: found.1, found.2)
      | some (s, false), rest => (front rest).map fun found => (s :: found.1, found.2)
      | _, _ => none

def back (options : Options) : List Text → Option (List Setting × List Text)
  | [] => some ([], [])
  | arg :: rest =>
    match shape arg with
    | .terminator => some ([], rest)
    | .operand => (back options rest).map fun found => (found.1, arg :: found.2)
    | .option name attached =>
      match setting? options name attached rest.head?, rest with
      | some (s, true), _ :: rest =>
        (back options rest).map fun found => (s :: found.1, found.2)
      | some (s, false), rest =>
        (back options rest).map fun found => (s :: found.1, found.2)
      | _, _ => none

def all (settings : List Setting) (name : String) : List Text :=
  (settings.filter (·.name == name.toList)).map (·.value)

/-- At most one of the name, or the settings do not fit. -/
def single? (settings : List Setting) (name : String) : Option (Option Text) :=
  match all settings name with
  | [] => some none
  | [value] => some (some value)
  | _ => none

/-- A 64-bit number, perhaps with a plus sign in front. -/
def count? (t : Text) : Option Nat :=
  let digits := match t with
    | '+' :: rest => rest
    | _ => t
  if digits.isEmpty || !digits.all Text.isDigit then none
  else if Text.number digits ≤ Word.greatest then some (Text.number digits)
  else none

def singleCount? (settings : List Setting) (name : String) : Option (Option Nat) :=
  match single? settings name with
  | some (some t) => (count? t).map some
  | some none => some none
  | none => none

def command? (name : Text) (settings : List Setting) (operands : List Text) : Option Command :=
  match String.ofList name, operands with
  | "compile", [query] => some (.compile query (all settings "doctype"))
  | "pages", [] => do
    let total ← (← singleCount? settings "total")
    let page ← singleCount? settings "page"
    let pageSize ← singleCount? settings "page-size"
    return .pages total (page.getD 1) pageSize
  | "index", files =>
    if files.isEmpty || files.any (·.isEmpty) then none else some (.index files)
  | "search", [query] => do
    let sort ← single? settings "sort"
    let page ← singleCount? settings "page"
    return .search ⟨query, all settings "doctype", sort, page.getD 1⟩
  | "show", [id] => some (.card id)
  | "stats", [] => some .stats
  | _, _ => none

/-- The value behind the command counts more than the one in front of it, and
neither may be repeated. -/
def generalValue? (before behind : List Setting) (name : String) : Option (Option Text) := do
  let outer ← single? before name
  let inner ← single? behind name
  return inner.or outer

end Arguments

open Arguments in
def Invocation.read? (args : List Text) : Option Invocation := do
  let (before, name, rest) ← front args
  let (behind, operands) ← back (general ++ (← options? name)) rest
  let _ ← generalValue? before behind "verbose"
  return {
    command := ← command? name behind operands
    configFile := ← generalValue? before behind "config"
    dataFolder := ← generalValue? before behind "data-dir" }

end CardCatalog
