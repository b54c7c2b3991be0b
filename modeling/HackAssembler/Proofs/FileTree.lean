import HackAssembler.Proofs.Lists
import HackAssembler.Storage.FileTree

/-!
# What a write does to a tree

A file is written as a whole. Afterwards its path reads as the new contents, and everything else in
the tree is what it was. A path leads through directories only and a write puts no file in the place
of a directory, so every way that could be gone before can be gone afterwards.

## Main definitions

* `FileTree.Replaces` — two trees differ in one file only.
* `FileTree.replaces_put` — a write leads from one such tree to the other.
-/

namespace HackAssembler.FileTree

/-! ## One location -/

section Put
variable (tree : FileTree) {location other : Location} (node : Node)

theorem node?_put_self (h : location ≠ []) :
    (tree.put location node).node? location = some node := by
  simp [node?, put, h]

/-- What stands elsewhere stays. -/
theorem node?_put_of_ne (h : other ≠ location) :
    (tree.put location node).node? other = tree.node? other := by
  have hlookup : (tree.put location node).nodes.lookup other = tree.nodes.lookup other := by
    have hkey : (other == location) = false := by simpa using h
    simp only [put, List.lookup_cons, hkey]
    exact lookup_filter_of_ne h tree.nodes
  rw [node?, node?, hlookup]

theorem mem_files (bytes : List UInt8) :
    (location, bytes) ∈ tree.files ↔ (location, .file bytes) ∈ tree.nodes := by
  rw [files, List.mem_filterMap]
  constructor
  · rintro ⟨⟨l, _ | b⟩, hentry, heq⟩
    · cases heq
    · cases heq
      exact hentry
  · intro h
    exact ⟨_, h, rfl⟩

end Put

/-! ## Ways through a tree -/

section Way
variable {tree : FileTree} {here there location : Location} {part : String} {parts : List String}
  {found : Option Node}

theorem step_eq_ok_iff : tree.step here part = .ok found ↔
    part.utf8ByteSize ≤ maxNameBytes ∧ tree.node? (here.move part) = found := by
  by_cases hlong : maxNameBytes < part.utf8ByteSize
  · simp [step, hlong, Nat.not_le.2 hlong]
  · simp [step, hlong, Nat.not_lt.1 hlong]

theorem enter_cons_eq_ok_iff : tree.enter here (part :: parts) = .ok there ↔
    tree.step here part = .ok (some .directory) ∧
      tree.enter (here.move part) parts = .ok there := by
  rw [enter]
  split <;> simp_all

/-- One part of a path leads where it led before, unless it leads to what was written. -/
theorem step_put_of_ne (node : Node) (h : here.move part ≠ location) :
    (tree.put location node).step here part = tree.step here part := by
  rw [step, step, node?_put_of_ne tree node h]

/-- A way through directories does not touch what was written. -/
theorem enter_put (node : Node) (h : tree.node? location ≠ some .directory)
    (henter : tree.enter here parts = .ok there) :
    (tree.put location node).enter here parts = .ok there := by
  induction parts generalizing here with
  | nil => exact henter
  | cons part parts ih =>
    rw [enter_cons_eq_ok_iff] at henter ⊢
    have hne : here.move part ≠ location := by
      intro heq
      rw [step_eq_ok_iff, heq] at henter
      exact h henter.1.2
    rw [step_put_of_ne node hne]
    exact ⟨henter.1, ih henter.2⟩

end Way

/-! ## Paths -/

section Path
variable {tree : FileTree} {text : String} {location : Location}

/-- When a file can be written at a path: the way there leads through directories, and it ends at a
file or at nothing. -/
theorem target_eq_ok_iff : tree.target text = .ok location ↔
    ∃ path here found, Path.ofText text = .ok path ∧ tree.parent path = .ok here ∧
      path.slashed = false ∧ tree.step here path.last = .ok found ∧ found ≠ some .directory ∧
      here.move path.last = location := by
  rw [target]
  cases hpath : Path.ofText text with
  | error fault => simp [bind, Except.bind]
  | ok path =>
    cases hparent : tree.parent path with
    | error fault => simp [bind, Except.bind, hparent]
    | ok here =>
      cases hslashed : path.slashed with
      | true => simp [bind, Except.bind, hparent, hslashed]
      | false =>
        cases hstep : tree.step here path.last with
        | error fault => simp [bind, Except.bind, hparent, hslashed, hstep]
        | ok found =>
          cases found with
          | none => simp [bind, Except.bind, hparent, hslashed, hstep]
          | some node => cases node <;> simp [bind, Except.bind, hparent, hslashed, hstep]

/-- What is read where a way ends. -/
def reading : Option Node → Except StorageFault (List UInt8)
  | none => .error .notFound
  | some .directory => .error .isDirectory
  | some (.file bytes) => .ok bytes

theorem read_of_step {path : Path} {here : Location} {found : Option Node}
    (hpath : Path.ofText text = .ok path) (hparent : tree.parent path = .ok here)
    (hslashed : path.slashed = false) (hstep : tree.step here path.last = .ok found) :
    tree.read text = reading found := by
  rw [read, hpath]
  simp only [bind, Except.bind, hparent, hstep, hslashed]
  rcases found with _ | _ | bytes <;> rfl

theorem node?_ne_directory_of_target (h : tree.target text = .ok location) :
    tree.node? location ≠ some .directory := by
  obtain ⟨path, here, found, -, -, -, hstep, hfound, rfl⟩ := target_eq_ok_iff.1 h
  rwa [(step_eq_ok_iff.1 hstep).2]

theorem target_ne_root (h : tree.target text = .ok location) : location ≠ [] := by
  rintro rfl
  exact node?_ne_directory_of_target h rfl

/-- **A file reads as it was written.** -/
theorem read_put_self (h : tree.target text = .ok location) (bytes : List UInt8) :
    (tree.put location (.file bytes)).read text = .ok bytes := by
  have hnode := node?_ne_directory_of_target h
  have hroot := target_ne_root h
  obtain ⟨path, here, found, hpath, hparent, hslashed, hstep, -, rfl⟩ := target_eq_ok_iff.1 h
  have hparent' : (tree.put (here.move path.last) (.file bytes)).parent path = .ok here :=
    enter_put _ hnode hparent
  have hstep' : (tree.put (here.move path.last) (.file bytes)).step here path.last =
      .ok (some (.file bytes)) :=
    step_eq_ok_iff.2 ⟨(step_eq_ok_iff.1 hstep).1, node?_put_self tree _ hroot⟩
  exact read_of_step hpath hparent' hslashed hstep'

/-- A path that leads to another place reads as before, whether there is a file or not. -/
theorem read_put_of_ne (h : tree.node? location ≠ some .directory) {other : Location}
    (htarget : tree.target text = .ok other) (hne : other ≠ location) (node : Node) :
    (tree.put location node).read text = tree.read text := by
  obtain ⟨path, here, found, hpath, hparent, hslashed, hstep, -, rfl⟩ := target_eq_ok_iff.1 htarget
  have hparent' : (tree.put location node).parent path = .ok here := enter_put node h hparent
  have hstep' : (tree.put location node).step here path.last = .ok found := by
    rw [step_put_of_ne node hne]
    exact hstep
  rw [read_of_step hpath hparent hslashed hstep, read_of_step hpath hparent' hslashed hstep']

end Path

/-! ## Whole trees -/

/-- The trees differ in one file only, which has these bytes in the second. -/
structure Replaces (before : FileTree) (location : Location) (bytes : List UInt8)
    (after : FileTree) : Prop where
  home : after.home = before.home
  written : after.contents? location = some bytes
  /-- Whatever stands elsewhere stands there in both; nothing is added and nothing is lost. -/
  nodes : ∀ other, other ≠ location → after.node? other = before.node? other
  files : ∀ other held, (other, held) ∈ after.files ↔
    if other = location then held = bytes else (other, held) ∈ before.files
  /-- A path to another file, or to where another file could be, reads the same in both. -/
  reads : ∀ text other, before.target text = .ok other → other ≠ location →
    after.read text = before.read text

theorem replaces_put {tree : FileTree} {text : String} {location : Location}
    (h : tree.target text = .ok location) (bytes : List UInt8) :
    tree.Replaces location bytes (tree.put location (.file bytes)) where
  home := rfl
  written := by rw [contents?, node?_put_self tree _ (target_ne_root h)]
  nodes other hne := node?_put_of_ne tree _ hne
  files other held := by
    rw [mem_files, mem_files, put, List.mem_cons, List.mem_filter]
    by_cases heq : other = location
    · simp [heq]
    · simp [heq]
  reads other place htarget hne :=
    read_put_of_ne (node?_ne_directory_of_target h) htarget hne _

end HackAssembler.FileTree
