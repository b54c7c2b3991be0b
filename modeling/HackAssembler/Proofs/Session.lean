import HackAssembler.Proofs.Options
import HackAssembler.Proofs.Reports
import HackAssembler.Proofs.SourceFile

/-!
# The command and the call

The command goes through the steps of assembling a file by itself, to report on the way what went
wrong. It ends as the call ends, for every failure and with the same files, and its flags add to
what is shown and change nothing else.

Everything is read off `perform_plan_of_error` and `perform_plan_of_ok`, which say what a run does
without a program and with one.

## Main definitions

* `FileFailure.ofAssembling` — the failures that the command reports.
* `Ending.ofOutcome` — how the command ends, told from the outcome of the call.
* `Agrees` — a run of the command and a call tell the same.
* `Listed` — how the listing of the symbols stands in what is printed.
* `FlagsAside` — a command line does what it does without its flags.
-/

namespace HackAssembler

/-- The failure is one of assembling: the source cannot be read, or is faulty, or is too large. All
others come from below and are not foreseen. -/
def FileFailure.ofAssembling : FileFailure → Bool
  | .unreadable _ _ | .rejected (.aborted _) | .rejected (.tooLarge _) => true
  | .rejected (.malformed _) | .rejected .unwritable | .unlisted _ | .unopened _ _ => false

namespace CommandLine

/-- How the command ends when the call has this outcome. -/
def Ending.ofOutcome : Except FileFailure (List Word) → Ending
  | .ok _ => .exit 0
  | .error failure => if failure.ofAssembling then .exit 1 else .escaped failure

/-- What is printed about a source without a program. -/
def failureText : FileFailure → String
  | .rejected (.aborted report) => reportText report
  | failure => if failure.ofAssembling then "Error: " ++ failure.message ++ "\n" else ""

/-! ## What a run does -/

section Perform
variable (options : Options) (width : Nat) (tree : FileTree)

theorem planProgram_error {path : String} {reading : Except ReadFault String}
    {failure : FileFailure} (h : Program.ofReading path reading = .error failure)
    (logged : String) : planProgram options width logged (.error failure) =
      ⟨failureText failure, logged, .stop (.ofOutcome (.error failure))⟩ := by
  cases reading with
  | error fault =>
    cases h
    rcases fault with (_ | _) | _ <;> rfl
  | ok source =>
    rw [Program.ofReading] at h
    cases hend : Program.ofSource source with
    | ok program =>
      rw [hend] at h
      cases h
    | error cause =>
      rw [hend] at h
      cases h
      cases cause <;> rfl

/-- The listing that is asked for succeeds. -/
theorem exists_listing {path : String} {reading : Except ReadFault String} {program : Program}
    (h : Program.ofReading path reading = .ok program) :
    ∃ listing, (if options.symbols then program.table.overview width else .ok "") =
      .ok listing := by
  cases options.symbols with
  | true => exact Program.exists_printed h (some width)
  | false => exact ⟨"", rfl⟩

theorem planProgram_ok {program : Program} {listing : String}
    (h : (if options.symbols then program.table.overview width else .ok "") = .ok listing)
    (logged : String) : planProgram options width logged (.ok program) =
      ⟨warningsText program.table.warnings.toList ++ listing, logged,
        .write (outputName options.file) (Program.render program.words)
          (summaryText program.table (outputName options.file))⟩ := by
  simp only [planProgram, h]

/-- A write goes through when its path can be opened; only then the rest is printed. -/
theorem perform_write (printed logged path contents closing : String) :
    Plan.perform ⟨printed, logged, .write path contents closing⟩ tree =
      match tree.target path with
      | .error fault => ⟨.escaped (.unopened path fault), printed, logged, tree⟩
      | .ok location => ⟨.exit 0, printed ++ closing, logged,
          tree.put location (.file (Text.Utf8.encode contents.toList))⟩ := by
  simp only [Plan.perform, FileTree.writeText_eq]
  cases tree.target path <;> rfl

/-- A run on a source without a program touches no file. -/
theorem perform_plan_of_error {failure : FileFailure}
    (h : Program.ofReading options.file (tree.readSource options.file) = .error failure) :
    (plan options width (tree.readSource options.file)).perform tree =
      ⟨.ofOutcome (.error failure), failureText failure,
        loggedText options (tree.readSource options.file), tree⟩ := by
  rw [plan, h, planProgram_error options width h, Plan.perform]

/-- A run on a source with a program ends with the attempt to write it. -/
theorem perform_plan_of_ok {program : Program} {listing : String}
    (h : Program.ofReading options.file (tree.readSource options.file) = .ok program)
    (hlisting : (if options.symbols then program.table.overview width else .ok "") = .ok listing) :
    (plan options width (tree.readSource options.file)).perform tree =
      match tree.target (outputName options.file) with
      | .error fault => ⟨.escaped (.unopened (outputName options.file) fault),
          warningsText program.table.warnings.toList ++ listing,
          loggedText options (tree.readSource options.file), tree⟩
      | .ok location => ⟨.exit 0, warningsText program.table.warnings.toList ++ listing ++
            summaryText program.table (outputName options.file),
          loggedText options (tree.readSource options.file),
          tree.put location (.file (Text.Utf8.encode (Program.render program.words).toList))⟩ := by
  rw [plan, h, planProgram_ok options width hlisting, perform_write]

/-! ## What it comes to -/

/-- The command ends as the call does and leaves the same files, whatever its flags are. -/
theorem perform_plan_eq_assembleFile :
    ((plan options width (tree.readSource options.file)).perform tree).ending =
        .ofOutcome (assembleFile tree options.file none none).outcome ∧
      ((plan options width (tree.readSource options.file)).perform tree).tree =
        (assembleFile tree options.file none none).tree := by
  cases hprogram : Program.ofReading options.file (tree.readSource options.file) with
  | error failure =>
    rw [perform_plan_of_error options width tree hprogram, assembleFile, hprogram]
    exact ⟨rfl, rfl⟩
  | ok program =>
    obtain ⟨listing, hlisting⟩ := exists_listing options width hprogram
    rw [perform_plan_of_ok options width tree hprogram hlisting, assembleFile, hprogram]
    simp only [Option.elim_none, FileTree.writeText_eq, outputPath]
    cases tree.target (outputName options.file) with
    | error fault => exact ⟨rfl, rfl⟩
    | ok location => exact ⟨rfl, rfl⟩

theorem printed_of_error {failure : FileFailure}
    (h : Program.ofReading options.file (tree.readSource options.file) = .error failure) :
    ((plan options width (tree.readSource options.file)).perform tree).printed =
      failureText failure := by
  rw [perform_plan_of_error options width tree h]

/-- What is printed after the program has been written, if it could be. -/
def closingText (tree : FileTree) (file : String) (table : SymbolTable) : String :=
  match tree.target (outputName file) with
  | .error _ => ""
  | .ok _ => summaryText table (outputName file)

theorem printed_of_ok {program : Program} {listing : String}
    (h : Program.ofReading options.file (tree.readSource options.file) = .ok program)
    (hlisting : (if options.symbols then program.table.overview width else .ok "") = .ok listing) :
    ((plan options width (tree.readSource options.file)).perform tree).printed =
      warningsText program.table.warnings.toList ++ listing ++
        closingText tree options.file program.table := by
  rw [perform_plan_of_ok options width tree h hlisting, closingText]
  cases tree.target (outputName options.file) with
  | error fault => exact (String.append_empty).symm
  | ok location => rfl

theorem logged_perform_plan :
    ((plan options width (tree.readSource options.file)).perform tree).logged =
      loggedText options (tree.readSource options.file) := by
  cases hprogram : Program.ofReading options.file (tree.readSource options.file) with
  | error failure => rw [perform_plan_of_error options width tree hprogram]
  | ok program =>
    obtain ⟨listing, hlisting⟩ := exists_listing options width hprogram
    rw [perform_plan_of_ok options width tree hprogram hlisting]
    cases tree.target (outputName options.file) <;> rfl

end Perform

/-! ## The command and the call -/

/-- A run of the command on a file and a call that assembles the file tell the same. -/
structure Agrees (tree : FileTree) (file : String) (session : Session) (call : FileRun) : Prop where
  success : session.ending = .exit 0 ↔ ∃ words, call.outcome = .ok words
  /-- The command reports exactly the failures of assembling. -/
  failure : session.ending = .exit 1 ↔
    ∃ failure, call.outcome = .error failure ∧ failure.ofAssembling = true
  escape : ∀ failure, session.ending = .escaped failure ↔
    call.outcome = .error failure ∧ failure.ofAssembling = false
  sameFiles : session.tree = call.tree
  unchanged : session.ending ≠ .exit 0 → session.tree = tree
  /-- A faulty program is told error by error and warning by warning, and then how many there are
  of each. -/
  report : ∀ report, call.outcome = .error (.rejected (.aborted report)) →
    ∃ errors warnings lines,
      List.Forall₂ (fun d => Reports "Error" d.line d.fault.message) report.errors errors ∧
      List.Forall₂ (fun w => Reports "Warning" w.line w.message) report.warnings warnings ∧
      lines = errors.flatten ++ warnings.flatten ++
        ["Assembly aborted -- " ++ toString report.errors.length ++ " error(s) and " ++
          toString report.warnings.length ++ " warning(s) detected."] ∧
      session.printed = unlines lines ∧ ∀ line ∈ lines, Text.OneLine line
  /-- The warnings about a program stand before its summary. -/
  warnings : session.ending = .exit 0 →
    ∃ source program warnings, tree.readSource file = .ok source ∧
      Program.ofSource source = .ok program ∧ call.outcome = .ok program.words ∧
      List.Forall₂ (fun w => Reports "Warning" w.line w.message) program.table.warnings.toList
        warnings ∧
      session.printed = unlines (warnings.flatten ++
        ["Program length: " ++ toString program.table.programLength ++ " (of 32768, " ++
            toString (program.table.programLength * 100 / 32768) ++ "%), RAM usage: " ++
            toString program.table.ram,
          "Assembly successful - results written to " ++ outputName file])

section Outcome
variable {outcome : Except FileFailure (List Word)}

theorem Ending.ofOutcome_eq_zero_iff :
    ofOutcome outcome = .exit 0 ↔ ∃ words, outcome = .ok words := by
  cases outcome with
  | ok words => simp [ofOutcome]
  | error failure => cases h : failure.ofAssembling <;> simp [ofOutcome, h]

theorem Ending.ofOutcome_eq_one_iff :
    ofOutcome outcome = .exit 1 ↔
      ∃ failure, outcome = .error failure ∧ failure.ofAssembling = true := by
  cases outcome with
  | ok words => simp [ofOutcome]
  | error failure => cases h : failure.ofAssembling <;> simp [ofOutcome, h]

theorem Ending.ofOutcome_eq_escaped_iff (failure : FileFailure) :
    ofOutcome outcome = .escaped failure ↔
      outcome = .error failure ∧ failure.ofAssembling = false := by
  cases outcome with
  | ok words => simp [ofOutcome]
  | error other =>
    cases h : other.ofAssembling with
    | true =>
      simp only [ofOutcome, h, if_true, reduceCtorEq, Except.error.injEq, false_iff, not_and]
      rintro rfl
      simp [h]
    | false =>
      simp only [ofOutcome, h, Bool.false_eq_true, if_false, escaped.injEq, Except.error.injEq]
      constructor
      · rintro rfl
        exact ⟨rfl, h⟩
      · exact fun hsame => hsame.1

end Outcome

/-- With one file and nothing else the command assembles the file and shows no more than it has
to. -/
theorem run_singleton {file : String} (h : file.toList.head? ≠ some '-') (width : Nat)
    (tree : FileTree) : run [file] width tree =
      (plan ⟨file, false, false⟩ width (tree.readSource file)).perform tree := by
  have hflags : flagsIn [file] = [] := flagsIn_cons_of_undashed h []
  rw [run, Request.ofWords_of_namesFile (namesFile_singleton h), hflags]
  rfl

/-- The summary is two lines. -/
theorem summaryText_eq (table : SymbolTable) (output : String) :
    summaryText table output = unlines
      ["Program length: " ++ toString table.programLength ++ " (of 32768, " ++
          toString (table.programLength * 100 / 32768) ++ "%), RAM usage: " ++ toString table.ram,
        "Assembly successful - results written to " ++ output] := by
  have hbreak : "\nAssembly successful - results written to " =
      "\n" ++ "Assembly successful - results written to " := by decide +kernel
  have hof : " (of 32768, " = " (of " ++ (toString romSize ++ ", ") := by decide +kernel
  have hpercent : table.programLength * 100 / 32768 = table.programLength * 100 / romSize := rfl
  unfold summaryText
  simp only [hpercent, hbreak, hof, unlines, List.map_cons, List.map_nil, String.join_cons,
    String.join_nil, String.append_assoc, String.append_empty]

/-- Without flags the warnings and the closing text are all that is printed about a program. -/
theorem printed_plain {tree : FileTree} {file : String} {program : Program} (width : Nat)
    (h : Program.ofReading file (tree.readSource file) = .ok program) :
    ((plan ⟨file, false, false⟩ width (tree.readSource file)).perform tree).printed =
      unlines (warningLines program.table.warnings.toList) ++
        closingText tree file program.table := by
  have hlisting : (if false then program.table.overview width else .ok "") = .ok "" := rfl
  rw [printed_of_ok ⟨file, false, false⟩ width tree h hlisting, String.append_empty,
    warningsText_eq]

/-- **The command does what the call does.** It answers with 0 when the call returns, with 1 when
the call fails with an error of assembling, and any other failure of the call escapes as it is.
The files are the same afterwards, and what is printed tells of all errors and warnings. -/
theorem run_agrees_assembleFile {file : String} (h : file.toList.head? ≠ some '-')
    (width : Nat) (tree : FileTree) :
    Agrees tree file (run [file] width tree) (assembleFile tree file none none) := by
  obtain ⟨hending, hfiles⟩ := perform_plan_eq_assembleFile ⟨file, false, false⟩ width tree
  rw [run_singleton h]
  refine ⟨?_, ?_, ?_, hfiles, ?_, ?_, ?_⟩
  · rw [hending]
    exact Ending.ofOutcome_eq_zero_iff
  · rw [hending]
    exact Ending.ofOutcome_eq_one_iff
  · intro failure
    rw [hending]
    exact Ending.ofOutcome_eq_escaped_iff failure
  · intro hne
    rw [hfiles]
    cases houtcome : (assembleFile tree file none none).outcome with
    | ok words => exact absurd (hending.trans (by rw [houtcome]; rfl)) hne
    | error failure => exact tree_assembleFile_of_error tree file none none houtcome
  · intro report hreport
    obtain ⟨source, hread, hsource⟩ :=
      (outcome_assembleFile_eq_rejected_iff tree file none none).1 hreport
    have hprogram : Program.ofReading file (tree.readSource file) =
        .error (.rejected (.aborted report)) :=
      Program.ofReading_eq_rejected_iff.2 ⟨source, hread, hsource⟩
    obtain ⟨errors, warnings, herrors, hwarnings, hlines⟩ := exists_abortLines report
    refine ⟨errors, warnings, abortLines report, herrors, hwarnings, hlines, ?_,
      oneLine_abortLines hsource⟩
    rw [printed_of_error ⟨file, false, false⟩ width tree hprogram, ← reportText_eq]
    rfl
  · intro hzero
    rw [hending, Ending.ofOutcome_eq_zero_iff] at hzero
    obtain ⟨words, hwords⟩ := hzero
    obtain ⟨source, program, location, hread, hsource, rfl, htarget⟩ :=
      of_outcome_assembleFile_eq_ok tree file none none hwords
    have hprogram : Program.ofReading file (tree.readSource file) = .ok program :=
      Program.ofReading_eq_ok_iff.2 ⟨source, hread, hsource⟩
    have hopen : tree.target (outputName file) = .ok location := htarget
    obtain ⟨warnings, hwarnings, hlines⟩ := exists_warningLines program.table.warnings.toList
    refine ⟨source, program, warnings, hread, hsource, hwords, hwarnings, ?_⟩
    rw [printed_plain width hprogram, hlines, unlines_append, ← summaryText_eq]
    simp only [closingText, hopen]

/-- A label that is declared twice and a computation that is unknown. -/
theorem run_agrees_assembleFile_faulty :
    let tree : FileTree :=
      ⟨[(["a.asm"], .file (Text.Utf8.encode "(A)\n(A) // again\nD=X".toList))], []⟩
    let report : Report :=
      ⟨[⟨.unknownComputation "X", ⟨3, "D=X", "D=X"⟩⟩], [⟨⟨2, "(A)", "(A) // again"⟩, "A"⟩]⟩
    "a.asm".toList.head? ≠ some '-' ∧
      (assembleFile tree "a.asm" none none).outcome = .error (.rejected (.aborted report)) ∧
      Agrees tree "a.asm" (run ["a.asm"] 80 tree) (assembleFile tree "a.asm" none none) ∧
      (run ["a.asm"] 80 tree).printed =
        "Error in line 3: Unknown alu operation [X]\n\tD=X\n" ++
          "Warning in line 2: Symbol [A] previously defined; first definition kept\n" ++
          "\t(A) // again\nAssembly aborted -- 1 error(s) and 1 warning(s) detected.\n" := by
  intro tree report
  have h : "a.asm".toList.head? ≠ some '-' := by decide
  have houtcome : (assembleFile tree "a.asm" none none).outcome =
      .error (.rejected (.aborted report)) := by decide +kernel +revert
  exact ⟨h, houtcome, run_agrees_assembleFile h 80 tree, by decide +kernel +revert⟩

/-! ## Flags -/

/-- What is printed with the listing is what is printed without it, unless there is a program: its
symbols are listed right after the warnings. -/
def Listed (width : Nat) (assembled : Except FileFailure Program) (plain listed : String) : Prop :=
  match assembled with
  | .error _ => listed = plain
  | .ok program => ∃ listing closing, program.table.overview width = .ok listing ∧
      plain = unlines (warningLines program.table.warnings.toList) ++ closing ∧
      listed = unlines (warningLines program.table.warnings.toList) ++ listing ++ closing

/-- A command line with flags does what the file alone does. -/
structure FlagsAside (tree : FileTree) (width : Nat) (file : String) (words : List String) :
    Prop where
  ending : (run words width tree).ending = (run [file] width tree).ending
  files : (run words width tree).tree = (run [file] width tree).tree
  /-- Whether the trace is asked for is not seen in what is printed. -/
  undebugged : ∀ others, NamesFile file others →
    (Flag.symbols ∈ flagsIn others ↔ Flag.symbols ∈ flagsIn words) →
      (run others width tree).printed = (run words width tree).printed
  silent : Flag.debug ∉ flagsIn words → (run words width tree).logged = ""
  plain : Flag.symbols ∉ flagsIn words →
    (run words width tree).printed = (run [file] width tree).printed
  listed : Flag.symbols ∈ flagsIn words →
    Listed width (Program.ofReading file (tree.readSource file)) (run [file] width tree).printed
      (run words width tree).printed

section Flags
variable {file : String} {words : List String}

theorem run_of_namesFile (h : NamesFile file words) (width : Nat) (tree : FileTree) :
    run words width tree = (plan ⟨file, (flagsIn words).contains .symbols,
      (flagsIn words).contains .debug⟩ width (tree.readSource file)).perform tree := by
  rw [run, Request.ofWords_of_namesFile h]

/-- What is printed depends on the flag for the symbols and on no other. -/
theorem printed_eq_of_symbols_eq (file : String) {symbols symbols' : Bool}
    (hsymbols : symbols = symbols') (debug debug' : Bool) (width : Nat) (tree : FileTree) :
    ((plan ⟨file, symbols, debug⟩ width (tree.readSource file)).perform tree).printed =
      ((plan ⟨file, symbols', debug'⟩ width (tree.readSource file)).perform tree).printed := by
  subst hsymbols
  cases hprogram : Program.ofReading file (tree.readSource file) with
  | error failure =>
    rw [printed_of_error ⟨file, symbols, debug⟩ width tree hprogram,
      printed_of_error ⟨file, symbols, debug'⟩ width tree hprogram]
  | ok program =>
    obtain ⟨listing, hlisting⟩ := exists_listing ⟨file, symbols, debug⟩ width hprogram
    rw [printed_of_ok ⟨file, symbols, debug⟩ width tree hprogram hlisting,
      printed_of_ok ⟨file, symbols, debug'⟩ width tree hprogram hlisting]

/-- Nothing is logged unless the trace is asked for. -/
theorem loggedText_of_not_debug {options : Options} (h : options.debug = false)
    (reading : Except ReadFault String) : loggedText options reading = "" := by
  cases reading with
  | error fault => rfl
  | ok source => simp [loggedText, h]

/-- The listing is what stands between the warnings and the closing text. -/
theorem printed_listed (file : String) (debug : Bool) (width : Nat) (tree : FileTree) :
    Listed width (Program.ofReading file (tree.readSource file))
      ((plan ⟨file, false, false⟩ width (tree.readSource file)).perform tree).printed
      ((plan ⟨file, true, debug⟩ width (tree.readSource file)).perform tree).printed := by
  cases hprogram : Program.ofReading file (tree.readSource file) with
  | error failure =>
    rw [printed_of_error ⟨file, false, false⟩ width tree hprogram,
      printed_of_error ⟨file, true, debug⟩ width tree hprogram]
    exact rfl
  | ok program =>
    obtain ⟨listing, hlisting⟩ := exists_listing ⟨file, true, debug⟩ width hprogram
    refine ⟨listing, closingText tree file program.table, hlisting, ?_, ?_⟩
    · exact printed_plain width hprogram
    · rw [printed_of_ok ⟨file, true, debug⟩ width tree hprogram hlisting, warningsText_eq]

/-- **Flags never influence the result.** Wherever they stand and how often, the command ends as it
does for the file alone and leaves the same files. The trace goes to the log and nowhere else, and
the listing of the symbols is put in after the warnings; it never fails for a program that could be
assembled. -/
theorem run_flagsAside (h : NamesFile file words) (width : Nat) (tree : FileTree) :
    FlagsAside tree width file words ∧
      ∀ ops program, Program.ofOperations ops = .ok program →
        ∀ width, ∃ listing, program.table.overview width = .ok listing := by
  have hrun := run_of_namesFile h width tree
  have hplain := run_singleton h.undashed width tree
  obtain ⟨hending, hfiles⟩ := perform_plan_eq_assembleFile
    ⟨file, (flagsIn words).contains .symbols, (flagsIn words).contains .debug⟩ width tree
  obtain ⟨hending', hfiles'⟩ := perform_plan_eq_assembleFile ⟨file, false, false⟩ width tree
  refine ⟨⟨?_, ?_, ?_, ?_, ?_, ?_⟩, ?_⟩
  · rw [hrun, hplain, hending, hending']
  · rw [hrun, hplain, hfiles, hfiles']
  · intro others hothers hsymbols
    have hsame : (flagsIn others).contains .symbols = (flagsIn words).contains .symbols := by
      rw [Bool.eq_iff_iff, List.contains_iff_mem, List.contains_iff_mem]
      exact hsymbols
    rw [run_of_namesFile hothers, hrun]
    exact printed_eq_of_symbols_eq file hsame _ _ width tree
  · intro hdebug
    have hnone : (flagsIn words).contains .debug = false := by simpa using hdebug
    rw [hrun, logged_perform_plan ⟨file, _, _⟩]
    exact loggedText_of_not_debug hnone _
  · intro hsymbols
    have hnone : (flagsIn words).contains .symbols = false := by simpa using hsymbols
    rw [hrun, hplain]
    exact printed_eq_of_symbols_eq file hnone _ _ width tree
  · intro hsymbols
    rw [hrun, hplain, List.contains_iff_mem.2 hsymbols]
    exact printed_listed file _ width tree
  · intro ops program hprogram
    exact Program.exists_overview_of_ofOperations hprogram

end Flags

/-- Flags on both sides of the file, one of them twice, and a file with a variable to list. -/
theorem run_flagsAside_around :
    let tree : FileTree := ⟨[(["a.asm"], .file (Text.Utf8.encode "@i".toList))], []⟩
    let words := ["-sd", "a.asm", "-s"]
    NamesFile "a.asm" words ∧ Flag.symbols ∈ flagsIn words ∧
      (run ["a.asm"] 80 tree).ending = .exit 0 ∧ FlagsAside tree 80 "a.asm" words ∧
      (run words 80 tree).ending = .exit 0 := by
  intro tree words
  have h : NamesFile "a.asm" words := ⟨by decide, ["-sd"], ["-s"], rfl, by decide⟩
  have hplain : (run ["a.asm"] 80 tree).ending = .exit 0 := by decide +kernel +revert
  have haside := (run_flagsAside h 80 tree).1
  exact ⟨h, by decide, hplain, haside, haside.ending.trans hplain⟩

end CommandLine
end HackAssembler
