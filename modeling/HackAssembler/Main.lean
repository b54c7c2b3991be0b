import HackAssembler.CommandLine.Session

/-!
# The command

The thin layer between the command and the world: it reads the source, carries out the plan
and answers with the exit code. All decisions are made by `CommandLine.plan`.
-/

namespace HackAssembler.CommandLine

/-- The reason of the system for not opening a file, by its number; some calls give the
negative of it. -/
def numberedFault (code : UInt32) (reason : String) : StorageFault :=
  let n := if code < 0x80000000 then code else 0 - code
  if n = 2 then .notFound
  else if n = 20 then .notDirectory
  else if n = 21 then .isDirectory
  else if n = 36 then .nameTooLong
  else .system n.toNat reason

/-- The reason of the system for not opening a file. -/
def storageFault : IO.Error → StorageFault
  | .noFileOrDirectory _ _ _ => .notFound
  | .inappropriateType _ code reason => numberedFault code reason
  | .permissionDenied _ code reason => numberedFault code reason
  | .invalidArgument _ code reason => numberedFault code reason
  | other => .system 5 other.toString

/-- Reads a source file. -/
def readSourceFile (path : String) : IO (Except ReadFault String) := do
  try
    let bytes ← IO.FS.readBinFile path
    return sourceText bytes.toList
  catch e => return .error (.storage (storageFault e))

/-- The width of the terminal, as the environment tells it. -/
def terminalWidth : IO Nat := do
  match (← IO.getEnv "COLUMNS").bind String.toNat? with
  | some (n + 1) => return n + 1
  | _ => return 80

/-- The exit code of a run; a failure that the command does not report goes to standard error. -/
def finishRun (ending : Ending) : IO UInt32 := do
  match ending with
  | .exit code => return code.toUInt32
  | .escaped failure =>
    IO.eprintln failure.message
    return 1

/-- Carries out a plan on the files of the system. -/
def performPlan (p : Plan) : IO UInt32 := do
  IO.eprint p.logged
  IO.print p.printed
  match p.action with
  | .stop ending => finishRun ending
  | .write path contents closing =>
    try
      IO.FS.writeFile path contents
      IO.print closing
      return 0
    catch e => finishRun (.escaped (.unopened path (storageFault e)))

/-- Runs the command with these words. -/
def perform (words : List String) : IO UInt32 := do
  match Request.ofWords words with
  | .help =>
    IO.print helpText
    return 0
  | .usage message =>
    IO.eprint (usageText message)
    return 2
  | .assemble options =>
    performPlan (plan options (← terminalWidth) (← readSourceFile options.file))

end HackAssembler.CommandLine

/-- The entry point of the command. -/
def main (words : List String) : IO UInt32 := HackAssembler.CommandLine.perform words
