import HackAssembler.Proofs.Printing
import HackAssembler.Storage.Path

/-!
# The name of the output

The output goes next to the source, and only the last part of a path counts for its name. An
extension is cut off there if something other than dots stands in front of it; then the extension
of a program is put on. A name that has something other than dots in it gets a name that stays what
it is from then on, and it is that name from the start when it ends in the extension already.

## Main definitions

* `CutsPath` — a path as a directory with its slash and a name.
* `HasBody`, `HasExtension` — what a name has besides dots, and what can be cut off.
* `outputName_of_cutsPath` — the output name of a path that was cut.
-/

namespace HackAssembler

/-- The path is cut behind its last slash: the directory is empty or ends with that slash, and the
name holds none. -/
structure CutsPath (path directory name : String) : Prop where
  whole : path = directory ++ name
  closed : directory = "" ∨ ∃ upTo, directory = upTo ++ "/"
  last : '/' ∉ name.toList

/-- Something other than a dot is in the name. -/
def HasBody (name : String) : Prop := ∃ c ∈ name.toList, c ≠ '.'

/-- A dot of the name comes after something other than a dot. -/
def HasExtension (name : String) : Prop :=
  ∃ front back, name = front ++ "." ++ back ∧ HasBody front

/-! ## Cutting a path -/

theorem exists_cutsPath (path : String) : ∃ directory name, CutsPath path directory name := by
  rcases Text.beforeLast?_cases '/' path.toList with ⟨hnone, -⟩ | ⟨upTo, name, hpath, hname, -⟩
  · exact ⟨"", path, by simp, .inl rfl, hnone⟩
  · have hwhole : path = String.ofList upTo ++ "/" ++ String.ofList name := by
      rw [← String.toList_inj, hpath]
      simp
    exact ⟨_, _, hwhole, .inr ⟨_, rfl⟩, by simpa using hname⟩

theorem CutsPath.afterLast {path directory name : String} (h : CutsPath path directory name) :
    Text.afterLast '/' path.toList = name.toList := by
  rw [h.whole, String.toList_append]
  rcases h.closed with rfl | ⟨upTo, rfl⟩
  · exact Text.afterLast_of_notMem h.last
  · have hcut : (upTo ++ "/").toList ++ name.toList = upTo.toList ++ '/' :: name.toList := by simp
    rw [hcut, Text.afterLast_append _ h.last]

/-- The output name of a path: the directory stays, and the stem gets the extension of a program. -/
theorem outputName_of_cutsPath {path directory name : String} (h : CutsPath path directory name) :
    outputName path = directory ++ String.ofList (stem name.toList) ++ ".hack" := by
  have hfront : path.toList.take (path.toList.length - name.toList.length) = directory.toList := by
    rw [h.whole, String.toList_append, List.length_append, Nat.add_sub_cancel, List.take_left]
  rw [outputName, h.afterLast, hfront, String.ofList_append, String.ofList_toList,
    programExtension]

/-- A name that is a path by itself. -/
theorem outputName_of_name {name : String} (h : '/' ∉ name.toList) :
    outputName name = String.ofList (stem name.toList) ++ ".hack" := by
  have hcut : CutsPath name "" name := ⟨by simp, .inl rfl, h⟩
  rw [outputName_of_cutsPath hcut, String.empty_append]

/-! ## Stems -/

theorem any_ne_dot_iff (name : String) : (name.toList.any (· ≠ '.')) = true ↔ HasBody name := by
  simp [HasBody]

/-- What stands in front of the last dot is the stem if it has a body. -/
theorem stem_of_hasBody {front back : String} (hback : '.' ∉ back.toList) (hbody : HasBody front) :
    stem (front ++ "." ++ back).toList = front.toList := by
  have hcut : (front ++ "." ++ back).toList = front.toList ++ '.' :: back.toList := by simp
  rw [stem, hcut, Text.beforeLast?_append _ hback]
  exact if_pos ((any_ne_dot_iff front).2 hbody)

/-- Dots in front of the last dot are part of the name, and so is all that follows them. -/
theorem stem_of_not_hasBody {front back : String} (hback : '.' ∉ back.toList)
    (hbody : ¬HasBody front) :
    stem (front ++ "." ++ back).toList = (front ++ "." ++ back).toList := by
  have hcut : (front ++ "." ++ back).toList = front.toList ++ '.' :: back.toList := by simp
  rw [stem, hcut, Text.beforeLast?_append _ hback]
  exact if_neg fun hany => hbody ((any_ne_dot_iff front).1 hany)

/-- The last dot decides whether a name has an extension. -/
theorem hasExtension_iff_of_last {front back : String} (hback : '.' ∉ back.toList) :
    HasExtension (front ++ "." ++ back) ↔ HasBody front := by
  constructor
  · intro h
    obtain ⟨front', back', heq, c, hc, hne⟩ := h
    have hlists : front.toList ++ '.' :: back.toList = front'.toList ++ '.' :: back'.toList := by
      simpa using congrArg String.toList heq
    -- The other dot is not behind the last one, so what stands in front of it is in `front`.
    have hin : front'.toList ⊆ front.toList := by
      rcases List.append_eq_append_iff.1 hlists with ⟨rest, hfront', hrest⟩ | ⟨rest, hfront, -⟩
      · cases rest with
        | nil => simp [hfront']
        | cons d rest =>
          obtain ⟨-, hrest⟩ := List.cons_eq_cons.1 hrest
          exact absurd (by simp [hrest]) hback
      · simp [hfront]
    exact ⟨c, hin hc, hne⟩
  · intro hbody
    exact ⟨front, back, rfl, hbody⟩

/-- A name is its own stem, or it has an extension that is cut off at the last dot. -/
theorem stem_cases (name : String) :
    (¬HasExtension name ∧ stem name.toList = name.toList) ∨
      ∃ front back, name = front ++ "." ++ back ∧ '.' ∉ back.toList ∧ HasBody front ∧
        stem name.toList = front.toList := by
  rcases Text.beforeLast?_cases '.' name.toList with ⟨hnone, hcut⟩ | ⟨cs, ds, hname, hds, -⟩
  · refine .inl ⟨?_, by rw [stem, hcut]⟩
    intro hext
    obtain ⟨front, back, rfl, -⟩ := hext
    simp at hnone
  · have heq : name = String.ofList cs ++ "." ++ String.ofList ds := by
      rw [← String.toList_inj, hname]
      simp
    have hback : '.' ∉ (String.ofList ds).toList := by simpa using hds
    by_cases hbody : HasBody (String.ofList cs)
    · refine .inr ⟨_, _, heq, hback, hbody, ?_⟩
      rw [heq, stem_of_hasBody hback hbody]
    · refine .inl ⟨?_, ?_⟩
      · rwa [heq, hasExtension_iff_of_last hback]
      · rw [heq, stem_of_not_hasBody hback hbody]

/-- Cutting an extension off takes no body away. -/
theorem hasBody_stem_iff (name : String) :
    HasBody (String.ofList (stem name.toList)) ↔ HasBody name := by
  rcases stem_cases name with ⟨-, hstem⟩ | ⟨front, back, rfl, -, hbody, hstem⟩
  · rw [hstem, String.ofList_toList]
  · have hwhole : HasBody (front ++ "." ++ back) := by
      obtain ⟨c, hc, hne⟩ := hbody
      exact ⟨c, by simp [hc], hne⟩
    rw [hstem, String.ofList_toList]
    exact iff_of_true hbody hwhole

/-! ## Output names -/

/-- The extension of a program is one dot and letters. -/
theorem append_hack (name : String) : name ++ ".hack" = name ++ "." ++ "hack" := by
  rw [String.append_assoc]
  rfl

theorem stem_append_hack {base : String} (hbody : HasBody base) :
    stem (base ++ ".hack").toList = base.toList := by
  rw [append_hack]
  exact stem_of_hasBody (by decide) hbody

theorem stem_append_hack_of_not_hasBody {base : String} (hbody : ¬HasBody base) :
    stem (base ++ ".hack").toList = (base ++ ".hack").toList := by
  rw [append_hack]
  exact stem_of_not_hasBody (by decide) hbody

theorem append_hack_ne (name : String) : name ++ ".hack" ≠ name := by
  intro heq
  have hlength := congrArg String.length heq
  rw [String.length_append] at hlength
  have hpositive : 0 < ".hack".length := by decide
  omega

section Cut
variable {path directory name : String} (h : CutsPath path directory name)
include h

theorem CutsPath.outputName_eq : outputName path = directory ++ outputName name := by
  rw [outputName_of_cutsPath h, outputName_of_name h.last, String.append_assoc]

/-- The output name of a path is cut where the path is cut. -/
theorem CutsPath.output :
    CutsPath (outputName path) directory (String.ofList (stem name.toList) ++ ".hack") where
  whole := by rw [outputName_of_cutsPath h, String.append_assoc]
  closed := h.closed
  last := by
    have hstem : stem name.toList ⊆ name.toList := by
      rcases stem_cases name with ⟨-, hstem⟩ | ⟨front, back, rfl, -, -, hstem⟩
      · rw [hstem]
        exact List.Subset.refl _
      · rw [hstem]
        simp
    intro hslash
    rw [String.toList_append, String.toList_ofList, List.mem_append] at hslash
    rcases hslash with hslash | hslash
    · exact h.last (hstem hslash)
    · exact absurd hslash (by decide)

/-- A name with a body gets a name that stays what it is, and no other name does. -/
theorem CutsPath.outputName_outputName_iff :
    outputName (outputName path) = outputName path ↔ HasBody name := by
  rw [outputName_of_cutsPath h.output, outputName_of_cutsPath h, String.append_assoc,
    String.append_assoc, String.append_right_inj, ← hasBody_stem_iff name]
  generalize String.ofList (stem name.toList) = base
  by_cases hbody : HasBody base
  · rw [stem_append_hack hbody, String.ofList_toList]
    exact iff_of_true rfl hbody
  · rw [stem_append_hack_of_not_hasBody hbody, String.ofList_toList]
    exact iff_of_false (append_hack_ne _) hbody

/-- A source is its own output when its name is a body and the extension of a program. -/
theorem CutsPath.outputName_eq_self_iff :
    outputName path = path ↔ ∃ front, name = front ++ ".hack" ∧ HasBody front := by
  have hname : outputName path = path ↔ String.ofList (stem name.toList) ++ ".hack" = name := by
    rw [outputName_of_cutsPath h, String.append_assoc, h.whole]
    exact String.append_right_inj directory
  rw [hname]
  constructor
  · intro heq
    rcases stem_cases name with ⟨-, hstem⟩ | ⟨front, back, -, -, hbody, hstem⟩
    · rw [hstem, String.ofList_toList] at heq
      exact absurd heq (append_hack_ne name)
    · rw [hstem, String.ofList_toList] at heq
      exact ⟨front, heq.symm, hbody⟩
  · intro hfront
    obtain ⟨front, rfl, hbody⟩ := hfront
    rw [stem_append_hack hbody, String.ofList_toList]

end Cut

/-- **Where the output goes.** Every path can be cut behind its last slash. What stands up to there
is kept. If a dot of the name comes after something other than a dot, the path is kept up to its
last dot and gets the extension of a program from there on; otherwise the extension is put behind
the whole path. So the name of the output stays what it is when it is taken for a source again, unless
the source was named by dots alone, and a source is overwritten by its own output when its name
ends in the extension of a program and something other than dots stands in front of it. -/
theorem outputName_exchanges_extension :
    (∀ path : String, ∃ directory name, CutsPath path directory name) ∧
    (∀ path directory name : String, CutsPath path directory name →
      outputName path = directory ++ outputName name ∧
      (HasExtension name → ∃ front back, path = front ++ "." ++ back ∧ '.' ∉ back.toList ∧
        outputName path = front ++ ".hack") ∧
      (¬HasExtension name → outputName path = path ++ ".hack") ∧
      (outputName (outputName path) = outputName path ↔ HasBody name) ∧
      (outputName path = path ↔ ∃ front, name = front ++ ".hack" ∧ HasBody front)) ∧
    ∀ directory name : String, '/' ∉ name.toList →
      outputName (directory ++ "/" ++ name) = directory ++ "/" ++ outputName name := by
  refine ⟨exists_cutsPath, ?_, ?_⟩
  · intro path directory name h
    refine ⟨h.outputName_eq, ?_, ?_, h.outputName_outputName_iff, h.outputName_eq_self_iff⟩
    · intro hext
      rcases stem_cases name with ⟨hnone, -⟩ | ⟨front, back, hname, hback, -, hstem⟩
      · exact absurd hext hnone
      · refine ⟨directory ++ front, back, ?_, hback, ?_⟩
        · rw [h.whole, hname, String.append_assoc, String.append_assoc, String.append_assoc]
        · rw [outputName_of_cutsPath h, hstem, String.ofList_toList]
    · intro hnone
      rcases stem_cases name with ⟨-, hstem⟩ | ⟨front, back, hname, -, hbody, -⟩
      · rw [outputName_of_cutsPath h, hstem, String.ofList_toList, ← h.whole]
      · exact absurd ⟨front, back, hname, hbody⟩ hnone
  · intro directory name hname
    have h : CutsPath (directory ++ "/" ++ name) (directory ++ "/") name :=
      ⟨rfl, .inr ⟨directory, rfl⟩, hname⟩
    exact h.outputName_eq

-- A dot in front of a name starts no extension, nor does a dot in the name of a directory.
example : outputName "v1.0/.profile" = "v1.0/.profile.hack" ∧
    outputName "v1.0/" = "v1.0/.hack" := by
  decide

/-- Dots in the directory, in front of the name and within it, and a name of dots alone. -/
theorem outputName_exchanges_extension_dots :
    CutsPath "v1.0/.main.x.asm" "v1.0/" ".main.x.asm" ∧ HasExtension ".main.x.asm" ∧
      (∃ front back, "v1.0/.main.x.asm" = front ++ "." ++ back ∧ '.' ∉ back.toList ∧
        outputName "v1.0/.main.x.asm" = front ++ ".hack") ∧
      outputName (outputName "v1.0/.main.x.asm") = outputName "v1.0/.main.x.asm" ∧
      CutsPath "v1.0/.." "v1.0/" ".." ∧ ¬HasExtension ".." ∧
      outputName "v1.0/.." = "v1.0/...hack" ∧
      outputName (outputName "v1.0/..") ≠ outputName "v1.0/.." ∧
      outputName ("v1.0" ++ "/" ++ "x.hack") = "v1.0" ++ "/" ++ outputName "x.hack" := by
  obtain ⟨-, hcut, hdirectory⟩ := outputName_exchanges_extension
  have hmain : CutsPath "v1.0/.main.x.asm" "v1.0/" ".main.x.asm" :=
    ⟨by decide, .inr ⟨"v1.0", by decide⟩, by decide⟩
  have hext : HasExtension ".main.x.asm" := ⟨".main", "x.asm", by decide, 'm', by decide, by decide⟩
  have hbody : HasBody ".main.x.asm" := ⟨'m', by decide, by decide⟩
  have hup : CutsPath "v1.0/.." "v1.0/" ".." := ⟨by decide, .inr ⟨"v1.0", by decide⟩, by decide⟩
  have hdots : ¬HasBody ".." := by
    intro h
    obtain ⟨c, hc, hne⟩ := h
    simp_all
  have hnone : ¬HasExtension ".." := by
    intro h
    obtain ⟨front, back, heq, c, hc, hne⟩ := h
    exact hdots ⟨c, by rw [heq]; simp [hc], hne⟩
  obtain ⟨-, hreplaced, -, hagain, -⟩ := hcut _ _ _ hmain
  obtain ⟨-, -, happended, hother, -⟩ := hcut _ _ _ hup
  exact ⟨hmain, hext, hreplaced hext, hagain.2 hbody, hup, hnone, happended hnone,
    fun heq => hdots (hother.1 heq), hdirectory "v1.0" "x.hack" (by decide)⟩

end HackAssembler
