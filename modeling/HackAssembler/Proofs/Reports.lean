import HackAssembler.CommandLine.Session
import HackAssembler.Proofs.Outcome
import HackAssembler.Proofs.Positions

/-!
# What a report says, line by line

A report about a line is printed on two lines: the message, and below it the line as it was written.
A message quotes nothing but text of the line that it is about, and a line of source has no line end
inside, so no report can be taken for more or fewer lines than it has.

## Main definitions

* `Statement.texts`, `Fault.texts` — the texts that a statement is made of and that a fault quotes.
* `Text.Stripped` — what is left of a line without the white space around it.
* `CommandLine.Reports` — what is printed about a line.
* `CommandLine.reportLines`, `CommandLine.abortLines` — the lines that are printed.
* `CommandLine.oneLine_abortLines` — each of them is one line.
-/

namespace HackAssembler

/-! ## Parts of a text -/

namespace Text
variable {sep : Char} {cs before after : List Char}

theorem subset_of_splitFirst? (h : splitFirst? sep cs = some (before, after)) :
    before ⊆ cs ∧ after ⊆ cs := by
  rw [splitFirst?] at h
  split at h
  case h_1 => cases h
  case h_2 c rest hdrop =>
    cases h
    refine ⟨List.takeWhile_subset _, ?_⟩
    have hsuffix : c :: after <:+ cs := hdrop ▸ List.dropWhile_suffix _
    exact ((List.suffix_cons c after).trans hsuffix).subset

theorem subset_of_beforeLast? (h : beforeLast? sep cs = some before) : before ⊆ cs := by
  rw [beforeLast?] at h
  split at h
  case h_1 => cases h
  case h_2 c rest hdrop =>
    cases h
    have hsuffix : c :: rest <:+ cs.reverse := hdrop ▸ List.dropWhile_suffix _
    intro x hx
    have hmem : x ∈ cs.reverse := hsuffix.subset (List.mem_cons_of_mem c (List.mem_reverse.1 hx))
    exact List.mem_reverse.1 hmem

theorem trimEnd_subset (p : Char → Bool) (cs : List Char) : trimEnd p cs ⊆ cs := by
  rw [trimEnd_eq]
  exact (List.rdropWhile_prefix p cs).subset

theorem trim_subset (cs : List Char) : trim cs ⊆ cs :=
  List.Subset.trans (trimEnd_subset isBlank _) (List.dropWhile_suffix isBlank).subset

/-- The text has no line end inside. -/
def OneLine (text : String) : Prop := '\n' ∉ text.toList

instance (text : String) : Decidable (OneLine text) :=
  inferInstanceAs (Decidable ('\n' ∉ text.toList))

namespace OneLine
variable {a b : String}

theorem append (ha : OneLine a) (hb : OneLine b) : OneLine (a ++ b) := by
  rw [OneLine, String.toList_append, List.mem_append, not_or]
  exact ⟨ha, hb⟩

theorem of_subset (ha : OneLine a) (h : b.toList ⊆ a.toList) : OneLine b := fun hmem => ha (h hmem)

theorem natural (n : Nat) : OneLine (toString n) := by
  rw [OneLine, Nat.toString_eq_ofList_toDigits, String.toList_ofList]
  intro hmem
  exact absurd (Nat.isDigit_of_mem_toDigits (by omega) (by omega) hmem) (by decide)

theorem integer (n : Int) : OneLine (toString n) := by
  cases n with
  | ofNat m => exact natural m
  | negSucc m => exact append (a := "-") (by decide) (natural (m + 1))

end OneLine
end Text

/-! ## Statements and faults -/

namespace Statement

/-- The texts that a statement is made of. -/
def texts : Statement → List String
  | .label name | .symbol name _ => [name]
  | .compute target computation jump => target.toList ++ computation :: jump.toList
  | .constant _ | .reserve => []

theorem labelName_subset (cs : List Char) : labelName cs ⊆ cs := by
  rw [labelName]
  refine List.Subset.trans (List.drop_suffix _ _).subset ?_
  cases h : Text.beforeLast? ')' cs with
  | none => exact (List.dropLast_prefix cs).subset
  | some before => exact Text.subset_of_beforeLast? h

theorem Fields.ofRest_subset {cs all : List Char} {target : Option (List Char)}
    (htarget : ∀ text ∈ target, text ⊆ all) (hcs : cs ⊆ all) :
    ∀ text ∈ (ofRest target cs).toStatement.texts, text.toList ⊆ all := by
  rw [ofRest]
  split
  case h_1 computation jump hsplit =>
    obtain ⟨hcomputation, hjump⟩ := Text.subset_of_splitFirst? hsplit
    have hc := List.Subset.trans hcomputation hcs
    have hj := List.Subset.trans hjump hcs
    cases target with
    | none => simpa [toStatement, texts] using ⟨hc, hj⟩
    | some text => simpa [toStatement, texts] using ⟨htarget text rfl, hc, hj⟩
  case h_2 =>
    cases target with
    | none => simpa [toStatement, texts] using hcs
    | some text => simpa [toStatement, texts] using ⟨htarget text rfl, hcs⟩

theorem Fields.ofText_subset (cs : List Char) :
    ∀ text ∈ (ofText cs).toStatement.texts, text.toList ⊆ cs := by
  rw [ofText]
  split
  case h_1 target rest hsplit =>
    obtain ⟨htarget, hrest⟩ := Text.subset_of_splitFirst? hsplit
    exact ofRest_subset (by simpa using htarget) hrest
  case h_2 => exact ofRest_subset (by simp) (List.Subset.refl cs)

/-- A statement is made of text of its line. -/
theorem subset_of_mem_texts {text : String} {s : Statement} (h : ofText text = .ok s) :
    ∀ part ∈ s.texts, part.toList ⊆ text.toList := by
  by_cases hne : text = ""
  · subst hne
    cases h
  · obtain ⟨c, cs, hcs⟩ := exists_cons_of_ne_empty hne
    rw [ofText_of_toList hcs] at h
    rw [hcs]
    split at h
    · cases h
      simpa [texts] using labelName_subset (c :: cs)
    · split at h
      · split at h
        · rw [readConstant] at h
          split at h
          · cases h
          · cases h
            simp [texts]
        · cases h
          simp [texts]
      · cases h
        exact Fields.ofText_subset (c :: cs)

end Statement

namespace Fault

/-- The texts that a fault quotes. -/
def texts : Fault → List String
  | .frozenTable text | .outOfRam text | .undefinedSymbol text => [text]
  | .unknownComputation text | .unknownJump text => [text]
  | .addressRange _ => []

/-- The wording of a fault has line ends only where it quotes them. -/
theorem oneLine_message {fault : Fault} (h : ∀ text ∈ fault.texts, Text.OneLine text) :
    Text.OneLine fault.message := by
  cases fault with
  | addressRange value =>
    have hvalue := Text.OneLine.integer value
    have hlimit := Text.OneLine.integer maxAddress
    exact ((((by decide : Text.OneLine "@ value ").append hvalue).append (by decide)).append
      hlimit).append (by decide)
  | frozenTable text | outOfRam text | undefinedSymbol text | unknownComputation text
  | unknownJump text =>
    have htext : Text.OneLine text := h text List.mem_cons_self
    exact (Text.OneLine.append (by decide) htext).append (by decide)

end Fault

theorem Warning.oneLine_message {w : Warning} (h : Text.OneLine w.name) :
    Text.OneLine w.message := (Text.OneLine.append (by decide) h).append (by decide)

namespace Naming
variable {ops earlier : List Operation} {op : Operation}

/-- A fault quotes text of the statement that it is about. -/
theorem texts_subset_of_fault? {fault : Fault} (h : fault? ops earlier op = some fault) :
    fault.texts ⊆ op.statement.texts := by
  obtain ⟨statement, line⟩ := op
  cases statement with
  | label | reserve => cases h
  | constant value =>
    simp only [fault?, Statement.rangeFault?] at h
    split at h <;> cases h
    simp [Fault.texts]
  | symbol name allocates =>
    simp only [fault?, symbolFault?] at h
    split at h
    · cases h
      simp [Fault.texts, Statement.texts]
    · split at h
      · cases h
        simp [Fault.texts, Statement.texts]
      · obtain ⟨value, -, hrange⟩ := Option.bind_eq_some_iff.1 h
        rw [Statement.rangeFault?] at hrange
        split at hrange <;> cases hrange
        simp [Fault.texts]
  | compute target computation jump =>
    simp only [fault?, Statement.computationFault?] at h
    split at h
    · cases h
      simp [Fault.texts, Statement.texts]
    · cases jump with
      | none => cases h
      | some text =>
        simp only at h
        split at h <;> cases h
        simp [Fault.texts, Statement.texts]

/-- A diagnostic is about an operation of the program and quotes nothing else. -/
theorem of_mem_diagnostics {d : Diagnostic} (h : d ∈ diagnostics ops) :
    ∃ op ∈ ops, d.fault.texts ⊆ op.statement.texts ∧ d.line = op.line := by
  obtain ⟨earlier, op, later, hops, hd⟩ := (mem_inContext _).1 h
  obtain ⟨fault, hfault, rfl⟩ := Option.map_eq_some_iff.1 hd
  exact ⟨op, by simp [hops], texts_subset_of_fault? hfault, rfl⟩

/-- A warning is about a declaration of the program and names what is declared. -/
theorem of_mem_redeclarations {w : Warning} (h : w ∈ redeclarations ops) :
    ∃ op ∈ ops, w.name ∈ op.statement.texts ∧ w.line = op.line := by
  obtain ⟨earlier, op, later, hops, hw⟩ := (mem_inContext _).1 h
  refine ⟨op, by simp [hops], ?_⟩
  rw [redeclaration?] at hw
  split at hw
  case h_1 name hop =>
    split at hw <;> cases hw
    simp [hop, Statement.texts]
  case h_2 => cases hw

end Naming

/-! ## Lines of source -/

theorem Line.oneLine_of_mem_ofSource {source : String} {l : Line} (h : l ∈ ofSource source) :
    Text.OneLine l.text ∧ Text.OneLine l.raw := by
  obtain ⟨⟨piece, i⟩, hpiece, rfl⟩ := List.mem_map.1 (List.mem_of_mem_filter h)
  obtain ⟨cs, hcs, rfl⟩ := List.mem_map.1 (List.fst_mem_of_mem_zipIdx hpiece)
  refine ⟨?_, ?_⟩
  · intro hmem
    rw [text_ofPiece, toList_clean] at hmem
    exact absurd (Text.isBlank_of_mem_dropBlanks hmem) (by decide)
  · intro hmem
    simp only [ofPiece, String.toList_ofList] at hmem
    obtain ⟨i, hi⟩ := List.mem_iff_getElem?.1 hcs
    exact (getElem?_splitOn_newline_iff.1 hi).1 (Text.trimEnd_subset _ _ hmem)

/-- The texts of the operations of a source, and the lines that they come from, have no line end
inside. -/
theorem Operation.oneLine_of_ofSource {source : String} {ops : List Operation}
    (h : ofSource source = .ok ops) {op : Operation} (hop : op ∈ ops) :
    (∀ text ∈ op.statement.texts, Text.OneLine text) ∧ Text.OneLine op.line.raw := by
  have hline : op.line ∈ Line.ofSource source := by
    rw [← lines_of_ofSource h]
    exact List.mem_map_of_mem hop
  obtain ⟨htext, hraw⟩ := Line.oneLine_of_mem_ofSource hline
  refine ⟨?_, hraw⟩
  intro text hmem
  exact htext.of_subset (Statement.subset_of_mem_texts (ofText_of_mem_ofSource h hop) text hmem)

/-- **Nothing in a report breaks its line**: neither the messages nor the lines that they are
about. -/
theorem Program.oneLine_of_aborted {source : String} {report : Report}
    (h : ofSource source = .error (.aborted report)) :
    (∀ d ∈ report.errors, Text.OneLine d.fault.message ∧ Text.OneLine d.line.raw) ∧
      ∀ w ∈ report.warnings, Text.OneLine w.message ∧ Text.OneLine w.line.raw := by
  rw [ofSource] at h
  split at h
  case h_1 => cases h
  case h_2 ops hread =>
    obtain rfl := report_of_aborted (Operation.wellRead_of_ofSource hread) h
    refine ⟨?_, ?_⟩
    · intro d hd
      obtain ⟨op, hop, htexts, hline⟩ := Naming.of_mem_diagnostics hd
      obtain ⟨hone, hraw⟩ := Operation.oneLine_of_ofSource hread hop
      exact ⟨Fault.oneLine_message fun text htext => hone text (htexts htext), hline ▸ hraw⟩
    · intro w hw
      obtain ⟨op, hop, hname, hline⟩ := Naming.of_mem_redeclarations hw
      obtain ⟨hone, hraw⟩ := Operation.oneLine_of_ofSource hread hop
      exact ⟨Warning.oneLine_message (hone w.name hname), hline ▸ hraw⟩

/-! ## Stripped lines -/

namespace Text

/-- White space, by code points. -/
def IsSpace (c : Char) : Prop :=
  (0x9 ≤ c.toNat ∧ c.toNat ≤ 0xD) ∨ (0x1C ≤ c.toNat ∧ c.toNat ≤ 0x20) ∨ c.toNat = 0x85 ∨
    c.toNat = 0xA0 ∨ c.toNat = 0x1680 ∨ (0x2000 ≤ c.toNat ∧ c.toNat ≤ 0x200A) ∨
    c.toNat = 0x2028 ∨ c.toNat = 0x2029 ∨ c.toNat = 0x202F ∨ c.toNat = 0x205F ∨ c.toNat = 0x3000

theorem isBlank_iff_isSpace (c : Char) : isBlank c = true ↔ IsSpace c := by
  rw [isBlank, inRanges_iff]
  simp only [blankRanges, List.mem_cons, List.not_mem_nil, or_false, exists_eq_or_imp,
    exists_eq_left, IsSpace]
  omega

/-- The text is what is left of a line when the white space around it is taken away, and only
that. -/
structure Stripped (line text : List Char) : Prop where
  around : ∃ front back, line = front ++ text ++ back ∧ (∀ c ∈ front, IsSpace c) ∧
    ∀ c ∈ back, IsSpace c
  first : ∀ c ∈ text.head?, ¬IsSpace c
  last : ∀ c ∈ text.getLast?, ¬IsSpace c

theorem stripped_trim (cs : List Char) : Stripped cs (trim cs) := by
  have hback : cs.dropWhile isBlank = trim cs ++ (cs.dropWhile isBlank).rtakeWhile isBlank := by
    rw [trim, trimEnd_eq]
    exact List.rdropWhile_append_rtakeWhile.symm
  refine ⟨⟨cs.takeWhile isBlank, (cs.dropWhile isBlank).rtakeWhile isBlank, ?_, ?_, ?_⟩, ?_, ?_⟩
  · rw [List.append_assoc, ← hback, List.takeWhile_append_dropWhile]
  · intro c hc
    exact (isBlank_iff_isSpace c).1 (List.mem_takeWhile_imp hc)
  · intro c hc
    exact (isBlank_iff_isSpace c).1 (List.mem_rtakeWhile_imp hc)
  · intro c hc
    -- What is left starts where the white space in front ends.
    have hhead : (cs.dropWhile isBlank).head? = some c := by
      rw [hback, List.head?_append, hc]
      rfl
    have hfirst := List.head?_dropWhile_not isBlank cs
    rw [hhead] at hfirst
    rw [← isBlank_iff_isSpace]
    simpa using hfirst
  · intro c hc
    rw [trim, trimEnd_eq] at hc
    obtain ⟨hne, rfl⟩ := List.mem_getLast?_eq_getLast hc
    rw [← isBlank_iff_isSpace]
    exact List.rdropWhile_last_not isBlank _ hne

end Text

/-! ## What is printed -/

theorem unlines_append (lines others : List String) :
    unlines (lines ++ others) = unlines lines ++ unlines others := by
  simp [unlines, String.join_append]

theorem unlines_flatMap {α : Type} (f : α → List String) (l : List α) :
    unlines (l.flatMap f) = String.join (l.map fun a => unlines (f a)) := by
  induction l with
  | nil => rfl
  | cons a l ih => rw [List.flatMap_cons, unlines_append, ih, List.map_cons, String.join_cons]

namespace CommandLine

/-- The two lines of a report about a line. -/
def reportLines (label : String) (line : Line) (message : String) : List String :=
  [label ++ " in line " ++ toString line.number ++ ": " ++ message,
    "\t" ++ String.ofList (Text.trim line.raw.toList)]

/-- The lines of some warnings. -/
def warningLines (warnings : List Warning) : List String :=
  warnings.flatMap fun w => reportLines "Warning" w.line w.message

/-- The lines that tell of a program with faults: the errors, then the warnings, then how many there
are of each. -/
def abortLines (report : Report) : List String :=
  (report.errors.flatMap fun d => reportLines "Error" d.line d.fault.message) ++
    warningLines report.warnings ++
    ["Assembly aborted -- " ++ toString report.errors.length ++ " error(s) and " ++
      toString report.warnings.length ++ " warning(s) detected."]

theorem reportLine_eq (label : String) (line : Line) (message : String) :
    reportLine label line message = unlines (reportLines label line message) := by
  have hbreak : "\n\t" = "\n" ++ "\t" := rfl
  simp only [reportLine, reportLines, unlines, List.map_cons, List.map_nil, String.join_cons,
    String.join_nil, String.append_assoc, String.append_empty]
  rw [hbreak, String.append_assoc]

theorem warningsText_eq (warnings : List Warning) :
    warningsText warnings = unlines (warningLines warnings) := by
  rw [warningsText, warningLines, unlines_flatMap]
  simp only [← reportLine_eq]
  rfl

theorem reportText_eq (report : Report) : reportText report = unlines (abortLines report) := by
  have herrors : String.join (report.errors.map errorText) =
      unlines (report.errors.flatMap fun d => reportLines "Error" d.line d.fault.message) := by
    rw [unlines_flatMap]
    simp only [← reportLine_eq]
    rfl
  rw [reportText, abortLines, unlines_append, unlines_append, herrors, warningsText_eq]
  simp [unlines, String.join_cons, String.append_assoc]

/-- What is printed about a line: the message, and below it the line without the white space around
it. -/
def Reports (label : String) (line : Line) (message : String) (printed : List String) : Prop :=
  ∃ below, Text.Stripped line.raw.toList below ∧
    printed = [label ++ " in line " ++ toString line.number ++ ": " ++ message,
      "\t" ++ String.ofList below]

theorem reports_reportLines (label : String) (line : Line) (message : String) :
    Reports label line message (reportLines label line message) :=
  ⟨Text.trim line.raw.toList, Text.stripped_trim _, rfl⟩

/-- The warnings are reported one by one. -/
theorem exists_warningLines (warnings : List Warning) :
    ∃ printed, List.Forall₂ (fun w => Reports "Warning" w.line w.message) warnings printed ∧
      warningLines warnings = printed.flatten := by
  refine ⟨warnings.map fun w => reportLines "Warning" w.line w.message, ?_, ?_⟩
  · rw [List.forall₂_map_right_iff, List.forall₂_same]
    exact fun w _ => reports_reportLines "Warning" w.line w.message
  · rw [warningLines, List.flatMap_def]

/-- The errors are reported one by one, and so are the warnings after them. -/
theorem exists_abortLines (report : Report) :
    ∃ errors warnings,
      List.Forall₂ (fun d => Reports "Error" d.line d.fault.message) report.errors errors ∧
      List.Forall₂ (fun w => Reports "Warning" w.line w.message) report.warnings warnings ∧
      abortLines report = errors.flatten ++ warnings.flatten ++
        ["Assembly aborted -- " ++ toString report.errors.length ++ " error(s) and " ++
          toString report.warnings.length ++ " warning(s) detected."] := by
  obtain ⟨warnings, hwarnings, hlines⟩ := exists_warningLines report.warnings
  refine ⟨report.errors.map fun d => reportLines "Error" d.line d.fault.message, warnings, ?_,
    hwarnings, ?_⟩
  · rw [List.forall₂_map_right_iff, List.forall₂_same]
    exact fun d _ => reports_reportLines "Error" d.line d.fault.message
  · rw [abortLines, hlines, List.flatMap_def]

theorem oneLine_reportLines {line : Line} {label message : String} (hlabel : Text.OneLine label)
    (hmessage : Text.OneLine message) (hraw : Text.OneLine line.raw) :
    ∀ printed ∈ reportLines label line message, Text.OneLine printed := by
  have hbelow : Text.OneLine (String.ofList (Text.trim line.raw.toList)) := by
    refine hraw.of_subset ?_
    rw [String.toList_ofList]
    exact Text.trim_subset _
  have habove : Text.OneLine (label ++ " in line " ++ toString line.number ++ ": " ++ message) :=
    (((hlabel.append (by decide)).append (.integer line.number)).append (by decide)).append hmessage
  simpa [reportLines] using ⟨habove, .append (by decide) hbelow⟩

/-- **Each line that is printed about a program with faults is one line.** -/
theorem oneLine_abortLines {source : String} {report : Report}
    (h : Program.ofSource source = .error (.aborted report)) :
    ∀ printed ∈ abortLines report, Text.OneLine printed := by
  obtain ⟨herrors, hwarnings⟩ := Program.oneLine_of_aborted h
  intro printed hprinted
  rw [abortLines, List.mem_append, List.mem_append, List.mem_singleton] at hprinted
  rcases hprinted with (herror | hwarning) | rfl
  · obtain ⟨d, hd, hmem⟩ := List.mem_flatMap.1 herror
    exact oneLine_reportLines (by decide) (herrors d hd).1 (herrors d hd).2 printed hmem
  · obtain ⟨w, hw, hmem⟩ := List.mem_flatMap.1 hwarning
    exact oneLine_reportLines (by decide) (hwarnings w hw).1 (hwarnings w hw).2 printed hmem
  · exact ((((by decide : Text.OneLine "Assembly aborted -- ").append (.natural _)).append
      (by decide)).append (.natural _)).append (by decide)

end CommandLine
end HackAssembler
