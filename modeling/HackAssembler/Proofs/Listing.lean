import HackAssembler.Assembly.Program
import HackAssembler.Proofs.Consistency
import HackAssembler.SymbolTable.Listing

/-!
# Listings that succeed

A listing fails only at a name without an address, or at an address that is too long to be told.
The names that an overview shows are the predefined ones, the labels and the variables, and in a
table that has been filled by laying out a program all of them have an address, so no overview of
such a table fails.
-/

namespace HackAssembler

/-! ## Sorting -/

/-- Names are sorted by their upper-casing. -/
theorem stablySorted_sortNames (names : List String) :
    StablySorted Text.upper names (sortNames names) := by
  have hkey : ∀ entry ∈ names.map fun name => (Text.upper name, name),
      Text.upper entry.2 = entry.1 := by
    intro entry hentry
    obtain ⟨name, -, rfl⟩ := List.mem_map.1 hentry
    rfl
  have h := (stablySorted_mergeSort Prod.fst _).map Text.upper Prod.snd hkey
  rw [List.map_map] at h
  simpa [sortNames, Function.comp_def] using h

theorem sortNames_perm (names : List String) : (sortNames names).Perm names :=
  (stablySorted_sortNames names).perm

/-- Entries are sorted by their addresses. -/
theorem stablySorted_sortEntries (entries : List (String × Int)) :
    StablySorted Prod.snd entries (sortEntries entries) :=
  stablySorted_mergeSort Prod.snd entries

namespace SymbolTable
variable {t : SymbolTable} {names : List String}

/-! ## One listing -/

theorem exists_entry {name : String} (h : t.contains name = true) : ∃ e, t.entry name = .ok e := by
  rw [contains, Std.TreeMap.contains_eq_isSome_getElem?, Option.isSome_iff_exists] at h
  obtain ⟨b, hb⟩ := h
  have haddress : t.address? name = some b.address := by
    rw [address?, binding?, hb]
    rfl
  exact ⟨(name, b.address), by rw [entry, haddress]⟩

theorem exists_arrange (h : ∀ name ∈ names, t.contains name = true) (order : ListingOrder) :
    ∃ entries, t.arrange order names = .ok entries := by
  cases order with
  | byName =>
    apply exists_mapM_eq_ok
    intro name hname
    exact exists_entry (h name ((sortNames_perm names).mem_iff.1 hname))
  | byValue =>
    obtain ⟨entries, hentries⟩ :=
      exists_mapM_eq_ok t.entry fun name hname => exists_entry (h name hname)
    exact ⟨sortEntries entries, by rw [arrange, hentries]; rfl⟩

/-- A listing of names that have addresses does not fail. -/
theorem exists_listing (h : ∀ name ∈ names, t.contains name = true) (width : Nat) (title : String)
    (order : ListingOrder) : ∃ text, t.listing width title order names = .ok text := by
  rw [listing]
  split
  case isTrue => exact ⟨"", rfl⟩
  case isFalse =>
    obtain ⟨entries, hentries⟩ := exists_arrange h order
    rw [hentries]
    exact ⟨_, rfl⟩

/-! ## Addresses of any length -/

/-- The names are told as they are found when every address can be. -/
theorem mapM_tellEntry {l : List String}
    (h : ∀ name ∈ l, ∀ address, t.address? name = some address → Text.Writable address) :
    (l.mapM fun name => do tellEntry (← (t.entry name).mapError .fault)) =
      (l.mapM t.entry).mapError .fault := by
  induction l with
  | nil => rfl
  | cons name l ih =>
    rw [List.forall_mem_cons] at h
    rw [List.mapM_cons, List.mapM_cons, ih h.2]
    cases ha : t.address? name with
    | none =>
      have hentry : t.entry name = .error ⟨name⟩ := by rw [entry, ha]
      rw [hentry]
      rfl
    | some address =>
      have hentry : t.entry name = .ok (name, address) := by rw [entry, ha]
      have htold : tellEntry (name, address) = .ok (name, address) := if_pos (h.1 address ha)
      simp only [hentry, Except.mapError, bind, Except.bind, htold]
      cases l.mapM t.entry <;> rfl

/-- **A listing can be told when the addresses of its names can be**, and then it is the listing. -/
theorem toldListing_eq
    (h : ∀ name ∈ names, ∀ address, t.address? name = some address → Text.Writable address)
    (width : Nat) (title : String) (order : ListingOrder) :
    t.toldListing width title order names =
      (t.listing width title order names).mapError .fault := by
  have harrange : t.arrangeTold order names = (t.arrange order names).mapError .fault := by
    cases order with
    | byName =>
      apply mapM_tellEntry
      exact fun name hname => h name ((sortNames_perm names).mem_iff.1 hname)
    | byValue =>
      rw [arrangeTold, arrange]
      cases hentries : names.mapM t.entry with
      | error unbound => rfl
      | ok entries =>
        have hwritable : ∀ entry ∈ sortEntries entries, Text.Writable entry.2 := by
          intro found hfound
          have hmem := (stablySorted_sortEntries entries).perm.mem_iff.1 hfound
          obtain ⟨name, hname, hentry⟩ :=
            exists_of_mem_forall₂ (forall₂_of_mapM_eq_ok t.entry hentries).flip hmem
          rw [entry] at hentry
          split at hentry
          case h_1 address haddress =>
            cases hentry
            exact h name hname address haddress
          case h_2 => cases hentry
        have htold : (sortEntries entries).mapM tellEntry = .ok ((sortEntries entries).map id) :=
          mapM_eq_ok tellEntry fun entry hentry => if_pos (hwritable entry hentry)
        rw [List.map_id] at htold
        exact htold
  rw [toldListing, listing, harrange]
  split
  case isTrue => rfl
  case isFalse => cases t.arrange order names <;> rfl

/-! ## All listings -/

/-- An overview shows no name without an address. -/
theorem Recorded.exists_overview (h : Recorded t) (width : Nat) :
    ∃ text, t.overview width = .ok text := by
  have hpredefined : ∀ name ∈ predefinedNames, t.contains name = true :=
    fun name hname => (h.contains_iff name).2 (.inl hname)
  have hlabels : ∀ name ∈ t.labelNames, t.contains name = true :=
    fun name hname => (h.contains_iff name).2 (.inr (.inl hname))
  have hvariables : ∀ name ∈ t.variableNames, t.contains name = true :=
    fun name hname => (h.contains_iff name).2 (.inr (.inr hname))
  obtain ⟨_, h₁⟩ := exists_listing hpredefined width "Predefined Symbols" .byName
  obtain ⟨_, h₂⟩ := exists_listing hlabels width "Branch Addresses" .byName
  obtain ⟨_, h₃⟩ := exists_listing hlabels width "Branch Addresses" .byValue
  obtain ⟨_, h₄⟩ := exists_listing hvariables width
    "Implicitly defined variables (in @statements)" .byName
  rw [overview, overviewWith, h₁, h₂, h₃, h₄]
  exact ⟨_, rfl⟩

end SymbolTable

namespace Program

theorem table_of_ofOperations {ops : List Operation} {program : Program}
    (h : ofOperations ops = .ok program) : program.table = SymbolTable.ofProgram ops := by
  rw [ofOperations] at h
  split at h
  case isFalse => cases h
  case isTrue =>
    cases hverdict : (SymbolTable.ofProgram ops).verdict ops with
    | error report => simp [hverdict, ofVerdict] at h
    | ok words =>
      rw [hverdict, ofVerdict] at h
      split at h
      case isTrue => cases h
      case isFalse =>
        cases h
        rfl

/-- **The symbols of a program can be listed**, for every width. -/
theorem exists_overview_of_ofOperations {ops : List Operation} {program : Program}
    (h : ofOperations ops = .ok program) (width : Nat) :
    ∃ text, program.table.overview width = .ok text := by
  rw [table_of_ofOperations h]
  exact (SymbolTable.recorded_ofProgram ops).exists_overview width

theorem exists_overview {source : String} {program : Program}
    (h : ofSource source = .ok program) (width : Nat) :
    ∃ text, program.table.overview width = .ok text := by
  rw [ofSource] at h
  split at h
  case h_1 => cases h
  case h_2 => exact exists_overview_of_ofOperations h width

end Program
end HackAssembler
