import HackAssembler.CommandLine.Options
import HackAssembler.Proofs.Lists
import Mathlib.Data.List.TakeWhile

/-!
# Command lines that name one file

Flags may stand before the file and after it, alone or sharing a dash, and as often as one likes.
All that counts is which of them are there.

## Main definitions

* `flagWords` — the words that set flags, with the flags that they set.
* `flagsIn` — the flags that some words set.
* `NamesFile` — the words name one file and set flags besides.
* `Request.ofWords_of_namesFile` — what such a command line asks for.
-/

namespace HackAssembler.CommandLine

/-- The words that set flags and do nothing else, with the flags that they set. -/
def flagWords : List (String × List Flag) :=
  [("-s", [.symbols]), ("--symbols", [.symbols]), ("-d", [.debug]), ("--debug", [.debug]),
    ("-sd", [.symbols, .debug]), ("-ds", [.debug, .symbols])]

/-- The flags that some words set. -/
def flagsIn (words : List String) : List Flag :=
  words.flatMap fun word => (flagWords.lookup word).getD []

/-- The words name the file once, and all others set flags. -/
structure NamesFile (file : String) (words : List String) : Prop where
  undashed : file.toList.head? ≠ some '-'
  split : ∃ before after, words = before ++ file :: after ∧
    ∀ word ∈ before ++ after, word ∈ flagWords.map Prod.fst

/-! ## Single words -/

theorem nodup_flagWords : (flagWords.map Prod.fst).Nodup := by decide

/-- A word that sets flags starts with a dash and is no other kind of word. -/
theorem of_mem_flagWords : ∀ word ∈ flagWords.map Prod.fst,
    word.toList.head? = some '-' ∧ word ≠ Argument.separatorText ∧
      Argument.ofWord word ≠ .separator ∧ ambiguity? (Argument.ofWord word) = none := by decide

/-- A word that starts with no dash is a file name. -/
theorem Argument.ofWord_of_undashed {word : String} (h : word.toList.head? ≠ some '-') :
    ofWord word = .positional word := by
  simp [ofWord, h]

theorem flagsIn_append (words others : List String) :
    flagsIn (words ++ others) = flagsIn words ++ flagsIn others := by simp [flagsIn]

theorem flagsIn_cons (word : String) (words : List String) :
    flagsIn (word :: words) = (flagWords.lookup word).getD [] ++ flagsIn words := rfl

/-- A file name sets no flags. -/
theorem flagsIn_cons_of_undashed {file : String} (h : file.toList.head? ≠ some '-')
    (words : List String) : flagsIn (file :: words) = flagsIn words := by
  have hnone : flagWords.lookup file = none := by
    rw [lookup_eq_none_iff_not_mem]
    intro hmem
    exact h (of_mem_flagWords file hmem).1
  rw [flagsIn_cons, hnone]
  rfl

/-! ## Taking the words -/

namespace Scan
variable (s : Scan) (args : List Argument)

@[simp] theorem set_nil : s.set [] = s := by simp [set]

@[simp] theorem set_set (flags others : List Flag) :
    (s.set flags).set others = s.set (flags ++ others) := by
  simp [set, Bool.or_assoc]

/-- A word that sets flags is taken by setting them. -/
theorem run_flagWord {entry : String × List Flag} (h : entry ∈ flagWords) :
    s.run (Argument.ofWord entry.1 :: args) = (s.set entry.2).run args := by
  simp only [flagWords, List.mem_cons, List.not_mem_nil, or_false] at h
  rcases h with rfl | rfl | rfl | rfl | rfl | rfl <;> rfl

/-- Words that set flags are taken by setting all of them. -/
theorem run_flagWords {words : List String} (h : ∀ word ∈ words, word ∈ flagWords.map Prod.fst) :
    s.run (words.map Argument.ofWord ++ args) = (s.set (flagsIn words)).run args := by
  induction words generalizing s with
  | nil => simp [flagsIn]
  | cons word words ih =>
    obtain ⟨entry, hentry, rfl⟩ := List.mem_map.1 (h word List.mem_cons_self)
    have hlookup : flagWords.lookup entry.1 = some entry.2 :=
      (lookup_eq_some_iff_mem nodup_flagWords).2 hentry
    have hrest := ih (s.set entry.2) fun w hw => h w (List.mem_cons_of_mem _ hw)
    rw [List.map_cons, List.cons_append, run_flagWord s _ hentry, hrest, set_set, flagsIn_cons,
      hlookup, Option.getD_some]

/-- A file name is taken by itself, unless a separator follows it. -/
theorem run_positional {args : List Argument} (h : args.head? ≠ some .separator) (file : String) :
    s.run (.positional file :: args) = (s.take file).run args := by
  cases args with
  | nil => rfl
  | cons arg args =>
    cases arg with
    | separator => exact absurd rfl h
    | positional | short | long | unknown | ambiguous => rfl

end Scan

/-! ## Whole command lines -/

section
variable {file : String} {words : List String}

theorem namesFile_singleton (h : file.toList.head? ≠ some '-') : NamesFile file [file] :=
  ⟨h, [], [], rfl, by simp⟩

/-- Without a separator every word is told by itself. -/
theorem Argument.ofWords_eq_map (h : ∀ word ∈ words, word ≠ separatorText) :
    ofWords words = words.map ofWord := by
  have hall : ∀ word ∈ words, decide (word ≠ separatorText) = true :=
    fun word hword => decide_eq_true (h word hword)
  rw [ofWords, List.takeWhile_eq_self_iff.2 hall, List.dropWhile_eq_nil_iff.2 hall, List.append_nil]

namespace NamesFile
variable (h : NamesFile file words)
include h

theorem eq_or_mem_flagWords {word : String} (hword : word ∈ words) :
    word = file ∨ word ∈ flagWords.map Prod.fst := by
  obtain ⟨before, after, rfl, hflags⟩ := h.split
  by_cases heq : word = file
  · exact .inl heq
  · have hother : word ∈ before ++ after := by simpa [heq] using hword
    exact .inr (hflags word hother)

theorem ofWords_eq_map : Argument.ofWords words = words.map Argument.ofWord := by
  apply Argument.ofWords_eq_map
  intro word hword
  rcases h.eq_or_mem_flagWords hword with rfl | hflag
  · rintro rfl
    exact h.undashed rfl
  · exact (of_mem_flagWords word hflag).2.1

/-- No word could be several flags. -/
theorem findSome?_ambiguity? : (words.map Argument.ofWord).findSome? ambiguity? = none := by
  rw [List.findSome?_eq_none_iff]
  intro arg harg
  obtain ⟨word, hword, rfl⟩ := List.mem_map.1 harg
  rcases h.eq_or_mem_flagWords hword with rfl | hflag
  · rw [Argument.ofWord_of_undashed h.undashed]
    rfl
  · exact (of_mem_flagWords word hflag).2.2.2

end NamesFile

/-- **A command line with one file asks to assemble it**, with the flags that are there, wherever
they stand. -/
theorem Request.ofWords_of_namesFile (h : NamesFile file words) :
    Request.ofWords words =
      .assemble ⟨file, (flagsIn words).contains .symbols, (flagsIn words).contains .debug⟩ := by
  have hundashed := h.undashed
  rw [Request.ofWords, h.ofWords_eq_map, h.findSome?_ambiguity?]
  obtain ⟨before, after, rfl, hflags⟩ := h.split
  have hbefore : ∀ word ∈ before, word ∈ flagWords.map Prod.fst :=
    fun word hword => hflags word (List.mem_append_left after hword)
  have hafter : ∀ word ∈ after, word ∈ flagWords.map Prod.fst :=
    fun word hword => hflags word (List.mem_append_right before hword)
  have hnext : (after.map Argument.ofWord).head? ≠ some .separator := by
    intro hhead
    obtain ⟨word, hword, heq⟩ := List.mem_map.1 (List.mem_of_head? hhead)
    exact (of_mem_flagWords word (hafter word hword)).2.2.1 heq
  -- The flags in front of the file, the file itself, and the flags after it.
  have hlast := Scan.run_flagWords ((Scan.start.set (flagsIn before)).take file) [] hafter
  rw [List.append_nil] at hlast
  simp only [List.map_append, List.map_cons, Argument.ofWord_of_undashed hundashed,
    Scan.run_flagWords Scan.start _ hbefore, Scan.run_positional _ hnext, hlast, flagsIn_append,
    flagsIn_cons_of_undashed hundashed]
  simp [Scan.start, Scan.set, Scan.take, Scan.run, Scan.request]

end

end HackAssembler.CommandLine
