import HackAssembler.Proofs.LineEnds
import HackAssembler.Proofs.Listing
import HackAssembler.Proofs.Utf8
import HackAssembler.Storage.SourceFile

/-!
# Assembling a file and assembling its text

A file that holds a text is assembled as the text is, once its line ends have been made one. The
files play a part only before, when the source is read, and after, when the output is opened.
-/

namespace HackAssembler

/-- A file that holds a text is read as the text with line feeds only. -/
theorem FileTree.readSource_of_read {tree : FileTree} {path text : String}
    (h : tree.read path = .ok (Text.Utf8.encode text.toList)) :
    tree.readSource path = .ok (Text.normalize text) := by
  simp only [readSource, h, sourceText, Text.Utf8.decode_encode, Text.ofList_unifyNewlines]

theorem FileTree.writeText_eq (tree : FileTree) (path text : String) :
    tree.writeText path text = (tree.target path).map fun location =>
      tree.put location (.file (Text.Utf8.encode text.toList)) := rfl

namespace Program

theorem ofReading_eq_ok_iff {path : String} {reading : Except ReadFault String}
    {program : Program} : ofReading path reading = .ok program ↔
      ∃ source, reading = .ok source ∧ ofSource source = .ok program := by
  cases reading with
  | error fault => simp [ofReading]
  | ok source => cases hend : ofSource source <;> simp [ofReading, hend, Except.mapError]

theorem ofReading_eq_rejected_iff {path : String} {reading : Except ReadFault String}
    {failure : Failure} : ofReading path reading = .error (.rejected failure) ↔
      ∃ source, reading = .ok source ∧ ofSource source = .error failure := by
  cases reading with
  | error fault => rcases fault with (_ | _) | _ <;> simp [ofReading, FileFailure.ofReadFault]
  | ok source => cases hend : ofSource source <;> simp [ofReading, hend, Except.mapError]

theorem map_words_ofReading (path source : String) :
    (ofReading path (.ok source)).map (·.words) = (assemble source).mapError .rejected := by
  rw [ofReading, assemble]
  cases ofSource source <;> rfl

/-- A program that was read from a file can be listed, if a listing is asked for. -/
theorem exists_printed {path : String} {reading : Except ReadFault String} {program : Program}
    (h : ofReading path reading = .ok program) (width : Option Nat) :
    ∃ printed, width.elim (.ok "") program.table.overview = .ok printed := by
  obtain ⟨source, -, hsource⟩ := ofReading_eq_ok_iff.1 h
  cases width with
  | none => exact ⟨"", rfl⟩
  | some width => exact exists_overview hsource width

end Program

section
variable (tree : FileTree) (path : String) (width : Option Nat) (output : Option String)

/-- **How assembling a file ends.** There is no program in the source, or the output cannot be
opened, and then no file is touched; or the output is written. -/
theorem assembleFile_cases :
    (∃ failure, Program.ofReading path (tree.readSource path) = .error failure ∧
      assembleFile tree path width output = ⟨.error failure, "", tree⟩) ∨
    ∃ program printed, Program.ofReading path (tree.readSource path) = .ok program ∧
      width.elim (.ok "") program.table.overview = .ok printed ∧
      ((∃ fault, tree.target (outputPath path output) = .error fault ∧
          assembleFile tree path width output =
            ⟨.error (.unopened (outputPath path output) fault), printed, tree⟩) ∨
        ∃ location, tree.target (outputPath path output) = .ok location ∧
          assembleFile tree path width output = ⟨.ok program.words, printed,
            tree.put location
              (.file (Text.Utf8.encode (Program.render program.words).toList))⟩) := by
  cases hprogram : Program.ofReading path (tree.readSource path) with
  | error failure => exact .inl ⟨failure, rfl, by rw [assembleFile, hprogram]⟩
  | ok program =>
    obtain ⟨printed, hprinted⟩ := Program.exists_printed hprogram width
    refine .inr ⟨program, printed, rfl, hprinted, ?_⟩
    simp only [assembleFile, hprogram, hprinted, FileTree.writeText_eq]
    cases htarget : tree.target (outputPath path output) with
    | error fault => exact .inl ⟨fault, rfl, rfl⟩
    | ok location => exact .inr ⟨location, rfl, rfl⟩

/-- A call that fails leaves the files as they were. -/
theorem tree_assembleFile_of_error {failure : FileFailure}
    (h : (assembleFile tree path width output).outcome = .error failure) :
    (assembleFile tree path width output).tree = tree := by
  rcases assembleFile_cases tree path width output with
    ⟨_, -, hrun⟩ | ⟨_, _, -, -, ⟨_, -, hrun⟩ | ⟨_, -, hrun⟩⟩
  · rw [hrun]
  · rw [hrun]
  · simp [hrun] at h

/-- A source is turned down by assembling it and by nothing else. -/
theorem outcome_assembleFile_eq_rejected_iff {failure : Failure} :
    (assembleFile tree path width output).outcome = .error (.rejected failure) ↔
      ∃ source, tree.readSource path = .ok source ∧
        Program.ofSource source = .error failure := by
  rw [← @Program.ofReading_eq_rejected_iff path]
  rcases assembleFile_cases tree path width output with
    ⟨_, hprogram, hrun⟩ | ⟨_, _, hprogram, -, ⟨_, -, hrun⟩ | ⟨_, -, hrun⟩⟩ <;>
    simp [hrun, hprogram]

/-- A call that returns has a program and a place for it. -/
theorem of_outcome_assembleFile_eq_ok {words : List Word}
    (h : (assembleFile tree path width output).outcome = .ok words) :
    ∃ source program location, tree.readSource path = .ok source ∧
      Program.ofSource source = .ok program ∧ program.words = words ∧
      tree.target (outputPath path output) = .ok location := by
  rcases assembleFile_cases tree path width output with
    ⟨_, -, hrun⟩ | ⟨program, _, hprogram, -, ⟨_, -, hrun⟩ | ⟨location, htarget, hrun⟩⟩
  · simp [hrun] at h
  · simp [hrun] at h
  · obtain ⟨source, hread, hsource⟩ := Program.ofReading_eq_ok_iff.1 hprogram
    exact ⟨source, program, location, hread, hsource, by simpa [hrun] using h, htarget⟩

end

/-- Where the source can be read and the output can be opened, the files play no part. -/
theorem outcome_assembleFile {tree : FileTree} {path source : String} {output : Option String}
    {location : Location} (hread : tree.readSource path = .ok source)
    (hopen : tree.target (outputPath path output) = .ok location) (width : Option Nat) :
    (assembleFile tree path width output).outcome = (assemble source).mapError .rejected := by
  rw [← Program.map_words_ofReading path, ← hread]
  rcases assembleFile_cases tree path width output with
    ⟨failure, hprogram, hrun⟩ | ⟨program, printed, hprogram, -, ⟨fault, hfault, -⟩ | ⟨_, -, hrun⟩⟩
  · rw [hrun, hprogram]
    rfl
  · rw [hopen] at hfault
    cases hfault
  · rw [hrun, hprogram]
    rfl

/-- **A file is assembled as the text that it holds.** The line ends of the text are made one, and
where no carriage return stands on its own this makes no difference: the lines are the same, with
their numbers and as they were written. -/
theorem assembleFile_eq_assemble {tree : FileTree} {path text : String} {output : Option String}
    {location : Location} (hread : tree.read path = .ok (Text.Utf8.encode text.toList))
    (hopen : tree.target (outputPath path output) = .ok location) (width : Option Nat) :
    (assembleFile tree path width output).outcome =
        (assemble (Text.normalize text)).mapError .rejected ∧
      (Text.Paired text.toList → Line.ofSource (Text.normalize text) = Line.ofSource text ∧
        (assembleFile tree path width output).outcome = (assemble text).mapError .rejected) := by
  have houtcome := outcome_assembleFile (FileTree.readSource_of_read hread) hopen width
  refine ⟨houtcome, fun hpaired => ⟨Line.ofSource_normalize hpaired, ?_⟩⟩
  rw [houtcome, assemble, assemble, Program.ofSource_normalize hpaired]

theorem assembleFile_eq_assemble_crlf :
    let text := "@x // é\r\n\r\nD=B\r\n"
    let tree : FileTree := ⟨[(["a.asm"], .file (Text.Utf8.encode text.toList))], []⟩
    tree.read "a.asm" = .ok (Text.Utf8.encode text.toList) ∧
      tree.target (outputPath "a.asm" none) = .ok ["a.hack"] ∧ Text.Paired text.toList ∧
      (assembleFile tree "a.asm" (some 80) none).outcome = (assemble text).mapError .rejected := by
  intro text tree
  have hread : tree.read "a.asm" = .ok (Text.Utf8.encode text.toList) := rfl
  have hopen : tree.target (outputPath "a.asm" none) = .ok ["a.hack"] := rfl
  have hpaired : Text.Paired text.toList := by decide
  exact ⟨hread, hopen, hpaired, ((assembleFile_eq_assemble hread hopen (some 80)).2 hpaired).2⟩

end HackAssembler
