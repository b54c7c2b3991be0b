import HackAssembler.Proofs.Encoding
import HackAssembler.Proofs.FileTree
import HackAssembler.Proofs.SourceFile

/-!
# The output of a run

Assembling a file writes the whole program or nothing. Everything that can go wrong, the opening of
the output included, does so before the first word is written, and the write changes one file only.

## Main definitions

* `Program.fileText` — each word on a line of its own.
* `FileTree.GainsProgram` — a tree after a program was written to it.
* `assembleFile_all_or_nothing` — what a run leaves behind.
-/

namespace HackAssembler

/-! ## Programs as text -/

theorem Word.newline_notMem_digits (w : Word) : '\n' ∉ w.digits := by
  intro hmem
  rcases eq_zero_or_one_of_mem_digits hmem with h | h <;> simp at h

namespace Program

/-- What the file of a program holds: each word and a line end after it. -/
def fileText (words : List Word) : List Char :=
  words.flatMap fun w => w.render.toList ++ ['\n']

theorem render_eq (words : List Word) : render words = unlines (words.map Word.render) := by
  rw [render, unlines, List.map_map]
  rfl

theorem toList_render (words : List Word) : (render words).toList = fileText words := by
  rw [render_eq, toList_unlines, List.flatMap_map, fileText]

/-- Cut at its line ends, the text of a program gives its words back. -/
theorem splitOn_fileText (words : List Word) :
    (fileText words).splitOn '\n' = words.map (·.render.toList) ++ [[]] := by
  rw [← toList_render, render_eq, splitOn_unlines, List.map_map]
  · rfl
  · intro line hline
    obtain ⟨w, -, rfl⟩ := List.mem_map.1 hline
    rw [Word.toList_render]
    exact w.newline_notMem_digits

end Program

/-! ## What is left behind -/

/-- A program was written to a path of the first tree: in the second the file there holds each word
on a line of its own and nothing else, and all else is as it was. -/
structure FileTree.GainsProgram (before : FileTree) (path : String) (words : List Word)
    (after : FileTree) : Prop where
  contents : after.read path = .ok (Text.Utf8.encode (Program.fileText words))
  decoded : Text.Utf8.decode (Text.Utf8.encode (Program.fileText words)) =
    .ok (Program.fileText words)
  lines : (Program.fileText words).splitOn '\n' = words.map (·.render.toList) ++ [[]]
  frame : ∃ location, before.target path = .ok location ∧
    before.Replaces location (Text.Utf8.encode (Program.fileText words)) after

theorem FileTree.gainsProgram_put {tree : FileTree} {path : String} {location : Location}
    (h : tree.target path = .ok location) (words : List Word) :
    tree.GainsProgram path words
      (tree.put location (.file (Text.Utf8.encode (Program.fileText words)))) where
  contents := read_put_self h _
  decoded := Text.Utf8.decode_encode _
  lines := Program.splitOn_fileText words
  frame := ⟨location, h, replaces_put h _⟩

/-- Reading and assembling a source gives words when both succeed. -/
theorem Program.map_words_ofReading_eq_ok_iff {path : String} {reading : Except ReadFault String}
    {words : List Word} : (ofReading path reading).map (·.words) = .ok words ↔
      ∃ source, reading = .ok source ∧ assemble source = .ok words := by
  cases reading with
  | error fault => simp [ofReading, Except.map]
  | ok source =>
    rw [map_words_ofReading]
    cases hend : assemble source <;> simp [Except.mapError, hend]

/-- **A run writes its whole output or nothing.** It returns words exactly when the source can be
read and assembled and the output can be opened. Then the output holds these words and every other
file is as it was; otherwise, whatever the failure, the files are those that there were before. -/
theorem assembleFile_all_or_nothing (tree : FileTree) (path : String) (width : Option Nat)
    (output : Option String) :
    let run := assembleFile tree path width output
    (∀ words, run.outcome = .ok words ↔
      (∃ source, tree.readSource path = .ok source ∧ assemble source = .ok words) ∧
        ∃ location, tree.target (outputPath path output) = .ok location) ∧
    match run.outcome with
    | .ok words => tree.GainsProgram (outputPath path output) words run.tree
    | .error _ => run.tree = tree := by
  intro run
  simp only [← @Program.map_words_ofReading_eq_ok_iff path]
  rcases assembleFile_cases tree path width output with
    ⟨failure, hprogram, hrun⟩ |
      ⟨program, printed, hprogram, -, ⟨fault, htarget, hrun⟩ | ⟨location, htarget, hrun⟩⟩
  · simp [run, hrun, hprogram, Except.map]
  · simp [run, hrun, htarget]
  · refine ⟨?_, ?_⟩
    · intro words
      simp [run, hrun, hprogram, htarget, Except.map]
    · simp only [run, hrun, Program.toList_render]
      exact FileTree.gainsProgram_put htarget program.words

end HackAssembler
