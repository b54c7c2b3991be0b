import HackAssembler.Text.Quoted

/-!
# Why a file cannot be opened

Most reasons are given by the system, each with a number. A text with a null character is no
path at all, and is turned down before the system is asked.
-/

namespace HackAssembler

/-- Why a file cannot be opened. -/
inductive StorageFault where
  /-- The text holds a null character. -/
  | nullInPath
  | notFound
  | notDirectory
  | isDirectory
  | nameTooLong
  /-- Any other reason, by the number and the words of the system. -/
  | system (code : Nat) (reason : String)
deriving DecidableEq, Repr

namespace StorageFault

/-- The number and the words that the system has for a fault. -/
def system? : StorageFault → Option (Nat × String)
  | .nullInPath => none
  | .notFound => some (2, "No such file or directory")
  | .notDirectory => some (20, "Not a directory")
  | .isDirectory => some (21, "Is a directory")
  | .nameTooLong => some (36, "File name too long")
  | .system code reason => some (code, reason)

/-- How the fault is told of a path. -/
def message (f : StorageFault) (path : String) : String :=
  match f.system? with
  | some (code, reason) =>
    "[Errno " ++ toString code ++ "] " ++ reason ++ ": " ++ Text.Quoted.render path
  | none => "embedded null byte"

end StorageFault
end HackAssembler
