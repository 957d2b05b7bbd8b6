import CardCatalog.Text.Basic

/-!
The files that a command works with. A command knows them only by the three
operations of `Files`, so it runs on a disk as on a tree held in memory. An
operation that fails says why in the words of the operating system.
-/

namespace CardCatalog

inductive FileFault where
  | missing
  | alreadyThere
  | notFolder
  | isFolder
  | nameTooLong
  | nulInName
  -- the file is there, but it is not text
  | notText
  | other (cause : Text)
  deriving DecidableEq

namespace FileFault

def system (text : String) (code : Nat) : Text :=
  text.toList ++ " (os error ".toList ++ Text.natural code ++ [')']

def message : FileFault → Text
  | missing => system "No such file or directory" 2
  | alreadyThere => system "File exists" 17
  | notFolder => system "Not a directory" 20
  | isFolder => system "Is a directory" 21
  | nameTooLong => system "File name too long" 36
  | nulInName => "file name contained an unexpected NUL byte".toList
  | notText => "stream did not contain valid UTF-8".toList
  | other cause => cause

def absent : FileFault → Bool
  | missing | notFolder | nameTooLong | nulInName => true
  | _ => false

end FileFault

structure Files (m : Type → Type) where
  read : Text → m (Except FileFault ByteArray)
  write : Text → ByteArray → m (Except FileFault Unit)
  -- a folder with all the folders on the way to it; those there are stay
  makeFolder : Text → m (Except FileFault Unit)

namespace Path

def within (folder name : Text) : Text :=
  if folder.getLast? = some '/' then folder ++ name else folder ++ '/' :: name

def inside (folder : Text) (names : List String) : Text :=
  names.foldl (fun path name => within path name.toList) folder

end Path

namespace Text

def ofOctets? (octets : ByteArray) : Option Text :=
  (String.fromUTF8? octets).map String.toList

def toOctets (t : Text) : ByteArray := (String.ofList t).toUTF8

end Text

end CardCatalog
