import HackAssembler.Storage.Fault
import HackAssembler.Text.Blank
import HackAssembler.Text.Split

/-!
# Paths

A path is a text whose parts are divided by slashes. The output of a source goes to the path
of the source with its extension exchanged.

## Main definitions

* `outputName` — where the program of a source file goes.
* `Path.ofText` — the parts of a path.
-/

namespace HackAssembler

/-! ## Output names -/

/-- The extension of an assembled program. -/
def programExtension : String := ".hack"

/-- The name of a file without its extension: what stands before the last dot, provided that
some character other than a dot is among it. Dots at the front of a name are part of it. -/
def stem (name : List Char) : List Char :=
  match Text.beforeLast? '.' name with
  | some before => if before.any (· ≠ '.') then before else name
  | none => name

/-- Where the program of a source file goes. -/
def outputName (path : String) : String :=
  let cs := path.toList
  let name := Text.afterLast '/' cs
  String.ofList (cs.take (cs.length - name.length) ++ stem name) ++ programExtension

/-! ## The parts of a path -/

/-- A path, cut at its slashes. -/
structure Path where
  /-- The path starts with a slash, so it leads from the root of the tree. -/
  absolute : Bool
  /-- The parts that have to be directories, the empty ones included. -/
  directories : List String
  /-- The part that is opened. -/
  last : String
  /-- The path ends in a slash, so it can only mean a directory. -/
  slashed : Bool
deriving DecidableEq, Repr

namespace Path

/-- Paths are shorter than this, in bytes. -/
def byteLimit : Nat := 4096

/-- The path that a text spells, if it is short enough and spells one. -/
def ofText (text : String) : Except StorageFault Path :=
  let cs := text.toList
  if cs.contains '\x00' then .error .nullInPath
  else if cs.isEmpty then .error .notFound
  else if byteLimit ≤ text.utf8ByteSize then .error .nameTooLong
  else
    let body := Text.trimEnd (· = '/') cs
    let parts := (body.splitOn '/').map String.ofList
    .ok ⟨cs.head? = some '/', parts.dropLast, parts.getLast?.getD "", body.length < cs.length⟩

/-- All parts, in order. -/
def parts (p : Path) : List String := p.directories ++ [p.last]

end Path
end HackAssembler
