import HackAssembler.Proofs.Image

/-!
# Images put together

The image of a program is put together from those of its parts, in whatever table: the words of the
one part and then of the other, or the errors of both in the order of the lines. It depends on
nothing in the table but the addresses of the names that are loaded and what the layout found, and
what the layout found is told in any case. All of this ends at a number that is too long to be told:
a program that loads one has neither an image nor a report.

## Main definitions

* `SymbolTable.loaded?` — the number that an operation loads.
* `SymbolTable.diagnosis?` — the fault of an operation, with its line.
* `toldErrors` — the errors that an attempt to make an image ends with.
-/

namespace HackAssembler

/-- The errors that an attempt to make an image ends with. -/
def toldErrors : Except (Stop Report) (List Word) → List Diagnostic
  | .error (.fault report) => report.errors
  | .error .unwritable | .ok _ => []

namespace SymbolTable
variable {t t' : SymbolTable} {ops x y : List Operation}

/-! ## What cannot be told -/

/-- The number that an operation loads. -/
def loaded? (t : SymbolTable) (op : Operation) : Option Int :=
  match op.statement with
  | .constant value => some value
  | .symbol name _ => t.address? name
  | .label _ | .compute _ _ _ | .reserve => none

/-- Whatever an operation loads, it is loaded and told as an address. -/
theorem encode_of_loaded? {op : Operation} {value : Int} (h : t.loaded? op = some value) :
    t.encode op = (Word.ofAddress value).map some := by
  rw [encode, Word.ofAddress]
  obtain ⟨statement, line⟩ := op
  cases statement with
  | constant =>
    cases h
    cases hw : Word.load value <;> simp [code, hw, Except.map, Except.mapError]
  | symbol name allocates =>
    have haddress : t.address? name = some value := h
    cases hw : Word.load value <;>
      simp [code, lookup, haddress, hw, bind, Except.bind, pure, Except.pure, Except.map,
        Except.mapError]
  | label | compute | reserve => cases h

/-- A number that is too long to be told does not fit into a word either. -/
theorem load_untellable_iff {value : Int} :
    (∃ fault, Word.load value = .error fault ∧ ¬fault.Tellable) ↔ ¬Text.Writable value := by
  constructor
  · rintro ⟨fault, hload, huntold⟩
    rw [Word.load] at hload
    split at hload <;> cases hload
    exact huntold
  · intro hlong
    refine ⟨.addressRange value, if_neg ?_, hlong⟩
    rintro ⟨hnonneg, hle⟩
    rw [maxAddress] at hle
    exact hlong (.of_lt_slots hnonneg (by omega))

/-- An unknown mnemonic is always told. -/
theorem tellable_of_ofComputation {target jump : Option String} {computation : String}
    {fault : Fault} (h : Word.ofComputation target computation jump = .error fault) :
    fault.Tellable := by
  rw [Word.ofComputation, Mnemonic.computationSum] at h
  cases hc : Mnemonic.opcodes.lookup computation with
  | none =>
    rw [hc] at h
    cases h
    trivial
  | some c =>
    rw [hc] at h
    cases jump with
    | none => cases h
    | some text =>
      rw [Mnemonic.jumpCode] at h
      cases hj : Mnemonic.jumps.lookup text with
      | none =>
        rw [hj] at h
        cases h
        trivial
      | some j =>
        rw [hj] at h
        cases h

/-- A fault cannot be told when the number that is loaded cannot. -/
theorem code_untellable_iff {op : Operation} :
    (∃ fault, t.code op = .error fault ∧ ¬fault.Tellable) ↔
      ∃ value, t.loaded? op = some value ∧ ¬Text.Writable value := by
  obtain ⟨statement, line⟩ := op
  cases statement with
  | label | reserve => simp [code, loaded?]
  | constant value =>
    have hcode (fault : Fault) : t.code ⟨.constant value, line⟩ = .error fault ↔
        Word.load value = .error fault := by
      cases hw : Word.load value <;> simp [code, hw, Except.map]
    simpa [hcode, loaded?] using load_untellable_iff
  | symbol name allocates =>
    cases ha : t.address? name with
    | none => simp [code, lookup, loaded?, ha, bind, Except.bind, Fault.Tellable]
    | some value =>
      have hcode (fault : Fault) : t.code ⟨.symbol name allocates, line⟩ = .error fault ↔
          Word.load value = .error fault := by
        simp only [code, lookup, ha, bind, Except.bind]
        cases Word.load value <;> simp [pure, Except.pure]
      simpa [hcode, loaded?, ha] using load_untellable_iff
  | compute target computation jump =>
    refine iff_of_false ?_ (by simp [loaded?])
    rintro ⟨fault, hfault, huntold⟩
    cases hw : Word.ofComputation target computation jump with
    | ok w => simp [code, hw, Except.map] at hfault
    | error fault' =>
      obtain rfl : fault' = fault := by simpa [code, hw, Except.map] using hfault
      exact huntold (tellable_of_ofComputation hw)

/-- Telling fails for an operation that loads too long a number, unless its line was found faulty
before. -/
theorem not_tells_iff : ¬t.Tells ops ↔
    ∃ op ∈ ops, (∀ d ∈ t.errors.toList, op.line ≠ d.line) ∧
      ∃ value, t.loaded? op = some value ∧ ¬Text.Writable value := by
  simp only [← code_untellable_iff, Tells, not_forall₂]
  constructor
  · rintro ⟨d, hd, huntold⟩
    obtain ⟨op, hop, hfault⟩ := List.mem_filterMap.1 hd
    obtain ⟨hmem, hline⟩ := mem_sound.1 hop
    split at hfault
    case h_1 fault hcode =>
      cases hfault
      exact ⟨op, hmem, hline, fault, hcode, huntold⟩
    case h_2 => cases hfault
  · rintro ⟨op, hmem, hline, fault, hcode, huntold⟩
    refine ⟨⟨fault, op.line⟩, List.mem_filterMap.2 ⟨op, mem_sound.2 ⟨hmem, hline⟩, ?_⟩, huntold⟩
    rw [hcode]

theorem image_eq_unwritable_iff : t.image ops = .error .unwritable ↔ ¬t.Tells ops := by
  rw [image]
  split
  case isTrue htells =>
    refine iff_of_false ?_ (not_not.2 htells)
    cases t.verdict ops <;> simp [Except.mapError]
  case isFalse htells => exact iff_of_true rfl htells

/-! ## One image -/

/-- The fault of an operation, with its line. -/
def diagnosis? (t : SymbolTable) (op : Operation) : Option Diagnostic :=
  match t.encode op with
  | .error (.fault fault) => some ⟨fault, op.line⟩
  | .error .unwritable | .ok _ => none

/-- What is told of the operations, if everything can be. -/
theorem faults_eq (h : t.Tells ops) : t.faults ops =
    (ops.filter fun op => ∀ d ∈ t.errors.toList, op.line ≠ d.line).filterMap t.diagnosis? := by
  have hsound : t.sound ops = ops.filter fun op => ∀ d ∈ t.errors.toList, op.line ≠ d.line := by
    apply List.filter_congr
    intro op hop
    have hmem : op ∈ t.sound ops ↔ _ := mem_sound
    rw [sound, List.mem_filter] at hmem
    rw [Bool.eq_iff_iff, decide_eq_true_eq]
    exact (and_iff_right hop).symm.trans (hmem.trans (and_iff_right hop))
  rw [← hsound]
  apply List.filterMap_congr
  intro op hop
  cases hcode : t.code op with
  | ok word => simp [diagnosis?, encode, hcode, Except.mapError]
  | error fault =>
    have hmem : ⟨fault, op.line⟩ ∈ t.faults ops :=
      List.mem_filterMap.2 ⟨op, hop, by rw [hcode]⟩
    have htold : fault.Tellable := h _ hmem
    simp [diagnosis?, encode, hcode, Except.mapError, Stop.ofFault, htold]

theorem verdict_eq_ok_iff {words : List Word} : t.verdict ops = .ok words ↔
    t.errors.toList ++ t.faults ops = [] ∧ words = (t.words ops).map (·.1) := by
  rw [verdict]
  cases t.errors.toList ++ t.faults ops <;> simp [eq_comm]

/-- There is an image when nothing is wrong. -/
theorem image_eq_ok_iff {words : List Word} : t.image ops = .ok words ↔
    t.errors.toList ++ t.faults ops = [] ∧ words = (t.words ops).map (·.1) := by
  rw [← verdict_eq_ok_iff, image]
  split
  case isTrue => cases t.verdict ops <;> simp [Except.mapError]
  case isFalse huntold =>
    refine iff_of_false (by simp) ?_
    intro hok
    obtain ⟨d, hd, -⟩ := not_forall₂.1 huntold
    simp [(List.append_eq_nil_iff.1 (verdict_eq_ok_iff.1 hok).1).2] at hd

/-- Whatever is wrong is told, in the order of the lines, if it can be. -/
theorem exists_report (htells : t.Tells ops) (h : t.errors.toList ++ t.faults ops ≠ []) :
    ∃ report, t.image ops = .error (.fault report) ∧ report.warnings = t.warnings.toList ∧
      StablySorted (·.line.number) (t.errors.toList ++ t.faults ops) report.errors := by
  refine ⟨⟨byLine (t.errors.toList ++ t.faults ops), t.warnings.toList⟩, ?_, rfl,
    stablySorted_byLine _⟩
  rw [image, if_pos htells, verdict]
  split
  case h_1 hnil => exact absurd hnil h
  case h_2 => rfl

theorem stablySorted_toldErrors (htells : t.Tells ops) :
    StablySorted (·.line.number) (t.errors.toList ++ t.faults ops) (toldErrors (t.image ops)) := by
  by_cases h : t.errors.toList ++ t.faults ops = []
  · rw [image_eq_ok_iff.2 ⟨h, rfl⟩, h]
    exact ⟨.refl [], .nil, fun _ => rfl⟩
  · obtain ⟨report, himage, -, hsorted⟩ := exists_report htells h
    rw [himage]
    exact hsorted

/-! ## Images of parts -/

/-- A table without errors has the image of a whole when it has those of the parts. -/
theorem image_append_eq_ok_iff (h : t.errors = #[]) {words : List Word} :
    t.image (x ++ y) = .ok words ↔
      ∃ u v, t.image x = .ok u ∧ t.image y = .ok v ∧ words = u ++ v := by
  simp only [image_eq_ok_iff, h, faults_append, words_append, List.nil_append, List.map_append,
    List.append_eq_nil_iff]
  constructor
  · rintro ⟨⟨hx, hy⟩, rfl⟩
    exact ⟨_, _, ⟨hx, rfl⟩, ⟨hy, rfl⟩, rfl⟩
  · rintro ⟨_, _, ⟨hx, rfl⟩, ⟨hy, rfl⟩, rfl⟩
    exact ⟨⟨hx, hy⟩, rfl⟩

theorem tells_append : t.Tells (x ++ y) ↔ t.Tells x ∧ t.Tells y := by
  simp only [Tells, faults_append, List.forall_mem_append]

/-- Otherwise the errors of both parts are told together. -/
theorem exists_report_append (h : t.errors = #[]) (htells : t.Tells (x ++ y))
    (hfails : ¬∃ u v, t.image x = .ok u ∧ t.image y = .ok v) :
    ∃ report, t.image (x ++ y) = .error (.fault report) ∧
      report.warnings = t.warnings.toList ∧
      StablySorted (·.line.number) (x.filterMap t.diagnosis? ++ y.filterMap t.diagnosis?)
        report.errors ∧
      StablySorted (·.line.number) (toldErrors (t.image x) ++ toldErrors (t.image y))
        report.errors := by
  have hwrong : t.errors.toList ++ t.faults (x ++ y) ≠ [] := by
    intro hnil
    obtain ⟨u, v, hu, hv, -⟩ := (image_append_eq_ok_iff h).1 (image_eq_ok_iff.2 ⟨hnil, rfl⟩)
    exact hfails ⟨u, v, hu, hv⟩
  obtain ⟨htellsx, htellsy⟩ := tells_append.1 htells
  obtain ⟨report, himage, hwarnings, hsorted⟩ := exists_report htells hwrong
  have hx := stablySorted_toldErrors htellsx
  have hy := stablySorted_toldErrors htellsy
  have hdiagnoses (ops : List Operation) (hops : t.Tells ops) :
      t.faults ops = ops.filterMap t.diagnosis? := by
    rw [faults_eq hops, h]
    simp
  rw [h, List.nil_append] at hx hy
  rw [h, List.nil_append, faults_append] at hsorted
  refine ⟨report, himage, hwarnings, ?_, hx.of_parts hy hsorted⟩
  rwa [← hdiagnoses x htellsx, ← hdiagnoses y htellsy]

theorem image_congr (herrors : t.errors = t'.errors) (hwarnings : t.warnings = t'.warnings)
    (h : ∀ op ∈ ops, ∀ name allocates, op.statement = .symbol name allocates →
      t.lookup name = t'.lookup name) : t.image ops = t'.image ops := by
  obtain ⟨hwords, hfaults⟩ := words_faults_congr herrors fun op hop => code_congr (h op hop)
  have htells : t.Tells ops ↔ t'.Tells ops := by rw [Tells, Tells, hfaults]
  simp only [image, htells, verdict, herrors, hwarnings, hwords, hfaults]

/-- **Images are put together from parts.** In a table without errors the words of two parts follow
each other, or the errors of both are told in the order of the lines. Tables in which the loaded
names have the same addresses make no difference. In a table with errors there are no words, and a
line that is told already is not told again. There is no report when an operation that is looked at
loads a number without a decimal text, and only then. -/
theorem image_composition (t : SymbolTable) (x y : List Operation) :
    (t.errors = #[] →
      (∀ words, t.image (x ++ y) = .ok words ↔
        ∃ u v, t.image x = .ok u ∧ t.image y = .ok v ∧ words = u ++ v) ∧
      ((¬∃ u v, t.image x = .ok u ∧ t.image y = .ok v) →
        t.image (x ++ y) = .error .unwritable ∨
        ∃ report, t.image (x ++ y) = .error (.fault report) ∧
          report.warnings = t.warnings.toList ∧
          StablySorted (·.line.number) (x.filterMap t.diagnosis? ++ y.filterMap t.diagnosis?)
            report.errors ∧
          StablySorted (·.line.number) (toldErrors (t.image x) ++ toldErrors (t.image y))
            report.errors)) ∧
    (∀ t' : SymbolTable, t.errors = t'.errors → t.warnings = t'.warnings →
      (∀ op ∈ x, ∀ name allocates, op.statement = .symbol name allocates →
        t.lookup name = t'.lookup name) → t.image x = t'.image x) ∧
    (t.errors ≠ #[] →
      t.image x = .error .unwritable ∨
      ∃ report, t.image x = .error (.fault report) ∧ report.warnings = t.warnings.toList ∧
        StablySorted (·.line.number) (t.errors.toList ++
          (x.filter fun op => ∀ d ∈ t.errors.toList, op.line ≠ d.line).filterMap t.diagnosis?)
          report.errors) ∧
    (t.image x = .error .unwritable ↔
      ∃ op ∈ x, (∀ d ∈ t.errors.toList, op.line ≠ d.line) ∧
        ∃ value, t.loaded? op = some value ∧ ¬Text.Writable value) := by
  refine ⟨?_, ?_, ?_, image_eq_unwritable_iff.trans not_tells_iff⟩
  · intro h
    refine ⟨fun words => image_append_eq_ok_iff h, fun hfails => ?_⟩
    by_cases htells : t.Tells (x ++ y)
    · exact .inr (exists_report_append h htells hfails)
    · exact .inl (image_eq_unwritable_iff.2 htells)
  · intro t' herrors hwarnings h
    exact image_congr herrors hwarnings h
  · intro h
    by_cases htells : t.Tells x
    · have hwrong : t.errors.toList ++ t.faults x ≠ [] := by
        intro hnil
        exact h (Array.toList_eq_nil_iff.1 (List.append_eq_nil_iff.1 hnil).1)
      rw [← faults_eq htells]
      exact .inr (exists_report htells hwrong)
    · exact .inl (image_eq_unwritable_iff.2 htells)

/-- Two parts with faults on one line, a table that binds one more name, and a line that the layout
found faulty. -/
theorem image_composition_faulty :
    let bad (text : String) (number : Int) : Operation :=
      ⟨.compute none text none, ⟨number, "", ""⟩⟩
    let error (text : String) (number : Int) : Diagnostic :=
      ⟨.unknownComputation text, ⟨number, "", ""⟩⟩
    let refused : Diagnostic := ⟨.outOfRam "v", ⟨2, "", ""⟩⟩
    (∃ report, initial.image ([bad "p" 2, bad "q" 1] ++ [bad "r" 1]) = .error (.fault report) ∧
      StablySorted (·.line.number) [error "p" 2, error "q" 1, error "r" 1] report.errors) ∧
    initial.image [⟨.symbol "R5" false, ⟨1, "", ""⟩⟩] =
      (initial.bindLabel "LOOP" 7).image [⟨.symbol "R5" false, ⟨1, "", ""⟩⟩] ∧
    ∃ report, (initial.recordError (.outOfRam "v") ⟨2, "", ""⟩).image [bad "p" 2, bad "q" 1] =
        .error (.fault report) ∧
      StablySorted (·.line.number) [refused, error "q" 1] report.errors := by
  intro bad error refused
  have htold (t : SymbolTable) (ops : List Operation) (h : ∀ op ∈ ops, t.loaded? op = none) :
      t.image ops ≠ .error .unwritable := by
    intro hend
    obtain ⟨op, hop, -, value, hvalue, -⟩ := (image_composition t ops []).2.2.2.1 hend
    simp [h op hop] at hvalue
  refine ⟨?_, ?_, ?_⟩
  · have hfails : ¬∃ u v, initial.image [bad "p" 2, bad "q" 1] = .ok u ∧
        initial.image [bad "r" 1] = .ok v := by
      rintro ⟨u, v, hu, -⟩
      exact absurd (image_eq_ok_iff.1 hu).1 (by decide)
    rcases ((image_composition initial _ _).1 rfl).2 hfails with
      hend | ⟨report, himage, -, hsorted, -⟩
    · exact absurd hend (htold _ _ (by decide))
    · exact ⟨report, himage, hsorted⟩
  · apply (image_composition initial _ []).2.1
    · rfl
    · rfl
    · intro op hop name allocates hname
      obtain rfl := List.mem_singleton.1 hop
      cases hname
      simp [lookup, address?]
  · have hrefused : (initial.recordError (.outOfRam "v") ⟨2, "", ""⟩).errors ≠ #[] := by
      simp [recordError]
    rcases (image_composition _ [bad "p" 2, bad "q" 1] []).2.2.1 hrefused with
      hend | ⟨report, himage, -, hsorted⟩
    · exact absurd hend (htold _ _ (by decide))
    · exact ⟨report, himage, hsorted⟩

/-- **Not everything that is wrong is reported**: a constant that has no decimal text leaves neither
words nor a report. -/
theorem image_unreported :
    ¬∀ (t : SymbolTable) (ops : List Operation), (¬∃ words, t.image ops = .ok words) →
      ∃ report, t.image ops = .error (.fault report) := by
  intro hall
  have hend : initial.image [⟨.constant Text.firstUnwritable, ⟨1, "", ""⟩⟩] =
      .error .unwritable := by
    rw [image_eq_unwritable_iff, not_tells_iff]
    exact ⟨_, List.mem_singleton_self _, fun _ hd => absurd hd List.not_mem_nil, _, rfl,
      Text.not_writable_firstUnwritable⟩
  obtain ⟨report, hreport⟩ := hall initial [⟨.constant Text.firstUnwritable, ⟨1, "", ""⟩⟩] (by
    simp [hend])
  simp [hend] at hreport

end SymbolTable
end HackAssembler
