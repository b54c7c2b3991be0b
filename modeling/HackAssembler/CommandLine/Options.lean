import HackAssembler.Text.Blank
import HackAssembler.Text.DecimalDigit
import HackAssembler.Text.Quoted
import HackAssembler.Text.Split

/-!
# Command line options

A command line names one file and any number of flags. Flags of one letter may share a dash,
long flags may be shortened as long as they stay unique, and after a word `--` nothing is a
flag any more. Words are first told apart one by one and then taken from left to right.

## Main definitions

* `Argument.ofWord` — what a single word is.
* `Scan.run` — the words taken in order.
* `Request.ofWords` — what a command line asks for.
-/

namespace HackAssembler.CommandLine

/-! ## Flags -/

/-- The flags of the command. -/
inductive Flag where
  | help
  | symbols
  | debug
deriving DecidableEq, Repr

namespace Flag

/-- All flags, in the order in which they are shown. -/
def all : List Flag := [.help, .symbols, .debug]

/-- The letter of a flag. -/
def letter : Flag → Char
  | .help => 'h'
  | .symbols => 's'
  | .debug => 'd'

/-- The long form of a flag. -/
def long : Flag → String
  | .help => "--help"
  | .symbols => "--symbols"
  | .debug => "--debug"

/-- Both forms of a flag. -/
def name (f : Flag) : String := "-" ++ f.letter.toString ++ "/" ++ f.long

/-- The flag with a letter. -/
def ofLetter? (c : Char) : Option Flag := all.find? (·.letter = c)

/-- The flags whose long form begins like this. -/
def startingWith (start : List Char) : List Flag :=
  all.filter fun f => start.isPrefixOf f.long.toList

end Flag

/-! ## Words -/

/-- What a word of the command line is. -/
inductive Argument where
  /-- A file name, or one too many. -/
  | positional (text : String)
  /-- A flag by its letter, and what follows the letter in the same word. -/
  | short (flag : Flag) (rest : Option (List Char))
  /-- A flag in its long form, and what follows an equals sign. -/
  | long (flag : Flag) (value : Option (List Char))
  /-- Looks like a flag and is none. -/
  | unknown (text : String)
  /-- Could be one of several flags. -/
  | ambiguous (text : String) (flags : List Flag)
  /-- The word after which nothing is a flag. -/
  | separator
deriving DecidableEq, Repr

namespace Argument

/-- The word that ends the flags. -/
def separatorText : String := "--"

/-- A minus sign and a decimal number, with or without a point. A line feed may follow. -/
def isNegativeNumber (cs : List Char) : Bool :=
  match cs with
  | '-' :: rest =>
    let body := if rest.getLast? = some '\n' then rest.dropLast else rest
    let fraction := body.dropWhile Text.isDecimalDigit
    match fraction with
    | [] => !body.isEmpty
    | '.' :: digits => !digits.isEmpty && digits.all Text.isDecimalDigit
    | _ => false
  | _ => false

/-- A flag that is written out, and nothing else. -/
def literal? (cs : List Char) : Option Argument :=
  match cs with
  | ['-', c] => (Flag.ofLetter? c).map (.short · none)
  | _ => (Flag.all.find? (·.long.toList = cs)).map (.long · none)

/-- The same flag with a value. -/
def withValue (value : List Char) : Argument → Argument
  | .short flag _ => .short flag (some value)
  | .long flag _ => .long flag (some value)
  | other => other

/-- A flag that is written out before an equals sign. -/
def valued? (cs : List Char) : Option Argument := do
  let (before, value) ← Text.splitFirst? '=' cs
  return (← literal? before).withValue value

/-- A flag that is shortened, or that shares its dash with what follows. -/
def shortened? (cs : List Char) : Option Argument :=
  match cs with
  | '-' :: '-' :: _ =>
    let (start, value) :=
      match Text.splitFirst? '=' cs with
      | some (before, after) => (before, some after)
      | none => (cs, none)
    match Flag.startingWith start with
    | [] => none
    | [flag] => some (.long flag value)
    | flags => some (.ambiguous (String.ofList cs) flags)
  | '-' :: c :: rest => (Flag.ofLetter? c).map (.short · (some rest))
  | _ => none

/-- What a word is that is no flag: file names may start with a dash if they look like a
negative number or hold a space. -/
def unflagged (cs : List Char) : Argument :=
  if isNegativeNumber cs || cs.contains ' ' then .positional (String.ofList cs)
  else .unknown (String.ofList cs)

/-- What a word is, before the separator. -/
def ofWord (word : String) : Argument :=
  let cs := word.toList
  if cs.head? ≠ some '-' || cs.length = 1 then .positional word
  else (literal? cs <|> valued? cs <|> shortened? cs).getD (unflagged cs)

/-- What the words of a command line are. -/
def ofWords (words : List String) : List Argument :=
  (words.takeWhile (· ≠ separatorText)).map ofWord ++
    match words.dropWhile (· ≠ separatorText) with
    | [] => []
    | _ :: rest => .separator :: rest.map .positional

end Argument

/-! ## Taking the words -/

/-- Which file to assemble and how. -/
structure Options where
  file : String
  symbols : Bool
  debug : Bool
deriving DecidableEq, Repr

/-- What a command line asks for. -/
inductive Request where
  | help
  /-- The command line is wrong. -/
  | usage (message : String)
  | assemble (options : Options)
deriving DecidableEq, Repr

/-- A flag that was given something it does not take. -/
def ignoredValue (flag : Flag) (value : List Char) : String :=
  "argument " ++ flag.name ++ ": ignored explicit argument " ++
    Text.Quoted.render (String.ofList value)

/-- The flags that share a dash: one letter each, up to the end of the word. The flags before
this one are in `seen`, the last one first. -/
def cluster (seen : List Flag) (flag : Flag) : List Char → Except String (List Flag)
  | [] => .ok (flag :: seen).reverse
  | c :: rest =>
    match Flag.ofLetter? c with
    | some next => cluster (flag :: seen) next rest
    | none => .error (ignoredValue flag (c :: rest))

/-- The flags in a word, or what is wrong with it. -/
def Argument.flags : Argument → Except String (List Flag)
  | .short flag (some []) => .error (ignoredValue flag [])
  | .short flag rest => cluster [] flag (rest.getD [])
  | .long flag none => .ok [flag]
  | .long flag (some value) => .error (ignoredValue flag value)
  | _ => .ok []

/-- What has been taken from the words so far. -/
structure Scan where
  file : Option String
  symbols : Bool
  debug : Bool
  /-- The words that are not wanted, the last one first. -/
  extras : List String
deriving DecidableEq, Repr

namespace Scan

/-- Nothing taken. -/
def start : Scan := ⟨none, false, false, []⟩

/-- Sets the flags of a word. -/
def set (s : Scan) (flags : List Flag) : Scan :=
  { s with
    symbols := s.symbols || flags.contains .symbols
    debug := s.debug || flags.contains .debug }

/-- Puts a word aside. -/
def reject (s : Scan) (text : String) : Scan := { s with extras := text :: s.extras }

/-- Takes a file name, if none was taken yet. -/
def take (s : Scan) (text : String) : Scan :=
  match s.file with
  | none => { s with file := some text }
  | some _ => s.reject text

/-- What is asked for when all words have been taken. A missing file is told before words that
are too many. -/
def request (s : Scan) : Request :=
  match s.file, s.extras with
  | none, _ => .usage "the following arguments are required: filename"
  | some file, [] => .assemble ⟨file, s.symbols, s.debug⟩
  | some _, extras => .usage ("unrecognized arguments: " ++ " ".intercalate extras.reverse)

/-- Takes the words in order. Help is given as soon as it is asked for. A separator next to
the file name goes with it; any other is a word too many. -/
def run (s : Scan) : List Argument → Request
  | [] => s.request
  | .positional text :: .separator :: args =>
    if s.file.isNone then (s.take text).run args
    else ((s.reject text).reject Argument.separatorText).run args
  | .separator :: .positional text :: args =>
    if s.file.isNone then (s.take text).run args
    else ((s.reject Argument.separatorText).reject text).run args
  | .positional text :: args => (s.take text).run args
  | .separator :: args => (s.reject Argument.separatorText).run args
  | .unknown text :: args => (s.reject text).run args
  | .ambiguous text _ :: args => (s.reject text).run args
  | arg :: args =>
    match arg.flags with
    | .error message => .usage message
    | .ok flags => if flags.contains .help then .help else (s.set flags).run args

end Scan

/-- The complaint about a word that could be several flags. -/
def ambiguity? : Argument → Option String
  | .ambiguous text flags =>
    some ("ambiguous option: " ++ text ++ " could match " ++ ", ".intercalate (flags.map (·.long)))
  | _ => none

/-- What a command line asks for. A word that could be several flags is wrong wherever it
stands. -/
def Request.ofWords (words : List String) : Request :=
  let args := Argument.ofWords words
  match args.findSome? ambiguity? with
  | some message => .usage message
  | none => Scan.start.run args

end HackAssembler.CommandLine
