import CardCatalog.Command.Run

/-!
The program on a real disk. It prints the answer of its command; a failure goes to the
error stream, and arguments that do not fit end it with a code of their own. This is the
program's `main` with the places of `default_config_path` and `default_data_dir`.
-/

namespace CardCatalog.Disk

def fault (e : IO.Error) : FileFault :=
  match e with
  | .noFileOrDirectory .. => .missing
  | .alreadyExists .. => .alreadyThere
  | .inappropriateType _ code _ => if code = 20 then .notFolder else .isFolder
  | e => .other (toString e).toList

def attempt {α : Type} (act : IO α) : IO (Except FileFault α) := do
  try return .ok (← act)
  catch e => return .error (fault e)

def files : Files IO where
  read path := attempt (IO.FS.readBinFile (String.ofList path))
  write path octets := attempt (IO.FS.writeBinFile (String.ofList path) octets)
  makeFolder path := attempt (IO.FS.createDirAll (String.ofList path))

/-- A folder of the user's own: where a variable says, if that is an absolute
path, else at a fixed place in the home folder. -/
def own (setBy : String) (atHome : List String) : IO (Option Text) := do
  let home ← IO.getEnv "HOME"
  let fallback := home.map fun home => Path.inside home.toList atHome
  return ((← IO.getEnv setBy).map String.toList).filter (·.head? == some '/') |>.or fallback

def name : String := "collectie-search"

def places : IO Places := do
  let config ← own "XDG_CONFIG_HOME" [".config"]
  let data ← own "XDG_DATA_HOME" [".local", "share"]
  return {
    configVariable := (← IO.getEnv "COLLECTIE_CONFIG").map String.toList
    ownConfig := config.map (Path.inside · [name, "config.toml"])
    dataFolder := (data.map (Path.inside · [name])).getD ('.' :: name.toList) }

end CardCatalog.Disk

open CardCatalog in
def main (args : List String) : IO UInt32 := do
  match Invocation.read? (args.map String.toList) with
  | none =>
    IO.eprintln "usage: collectie [--config FILE] [--data-dir DIR] COMMAND"
    return 2
  | some invocation =>
    match ← (Command.run Disk.files (← Disk.places) invocation).run with
    | .ok output =>
      IO.print (String.ofList output.text)
      return 0
    | .error fault =>
      IO.eprintln (String.ofList ("Error: ".toList ++ fault.message))
      return 1
