import HackAssembler.Proofs.Listing
import Mathlib.Algebra.Order.Floor.Div
import Mathlib.Data.List.Range

/-!
# Listings in columns

A listing shows every name that it is asked for, once for each time it is asked for, with its
address and in the order of the listing. The cells run down the columns; all columns but the last
are full, and the last is not empty. Where there is more than one column, no line is wider than the
terminal. A listing with a name that has no address shows nothing.

## Main definitions

* `Grid.column`, `Grid.columnCells` — the cells of a grid, column by column.
* `CellShows` — a cell with a name and its address.
* `Tabulates` — entries in columns, under a header, and no wider than the terminal.
* `SymbolTable.Arranges` — the entries of some names in the order of a listing.
-/

namespace HackAssembler

/-! ## Lines -/

section Lines
variable {texts : List String} {width cellWidth : Nat}

/-- Texts of one width side by side, each with the room of a separator behind it. -/
theorem length_intercalate (h : ∀ text ∈ texts, text.length = cellWidth) (hne : texts ≠ []) :
    (columnSeparator.intercalate texts).length + 3 = texts.length * (cellWidth + 3) := by
  induction texts with
  | nil => exact absurd rfl hne
  | cons text texts ih =>
    have hwidth : text.length = cellWidth := h text List.mem_cons_self
    have hrest : ∀ other ∈ texts, other.length = cellWidth :=
      fun other hother => h other (List.mem_cons_of_mem text hother)
    by_cases hnil : texts = []
    · subst hnil
      simp [hwidth]
    · have hseparator : columnSeparator.length = 3 := by decide
      have hlength := ih hrest hnil
      rw [String.intercalate_cons_of_ne_nil hnil, String.length_append, String.length_append,
        List.length_cons, Nat.succ_mul, hwidth, hseparator]
      omega

/-- What fits side by side is no wider than the terminal, unless a single cell is. -/
theorem length_intercalate_le (h : ∀ text ∈ texts, text.length = cellWidth)
    (hfit : texts.length ≤ Grid.fit width cellWidth) (hmany : 1 < Grid.fit width cellWidth) :
    (columnSeparator.intercalate texts).length ≤ width := by
  by_cases hnil : texts = []
  · subst hnil
    simp
  · -- More than one cell fits, so the quotient was not raised to one.
    have hquotient : Grid.fit width cellWidth = (width + 3) / (cellWidth + 3) := by
      have hseparator : columnSeparator.length = 3 := by decide
      rw [Grid.fit, hseparator] at hmany ⊢
      omega
    have hlength := length_intercalate h hnil
    have hroom : texts.length * (cellWidth + 3) ≤ width + 3 := by
      rw [hquotient] at hfit
      exact (Nat.le_div_iff_mul_le (by omega)).1 hfit
    omega

theorem le_length_intercalate (h : ∀ text ∈ texts, text.length = cellWidth) (hne : texts ≠ []) :
    cellWidth ≤ (columnSeparator.intercalate texts).length := by
  have hlength := length_intercalate h hne
  have hone : cellWidth + 3 ≤ texts.length * (cellWidth + 3) :=
    Nat.le_mul_of_pos_left _ (List.length_pos_iff.2 hne)
  omega

end Lines

/-! ## Grids -/

namespace Grid
variable {g : Grid} {width : Nat} {cells : Array String}

/-- The cells of a column, from top to bottom. -/
def column (g : Grid) (c : Nat) : List String := (g.cells.toList.drop (c * g.rows)).take g.rows

/-- The columns from left to right. -/
def columnCells (g : Grid) : List (List String) := (List.range g.columns).map g.column

/-- A quotient that is rounded up is the least number that is large enough. -/
theorem roundedUp_le_iff {n d m : Nat} (hd : 0 < d) : (n + d - 1) / d ≤ m ↔ n ≤ d * m := by
  rw [← Nat.ceilDiv_eq_add_pred_div]
  exact ceilDiv_le_iff_le_mul hd

theorem roundedUp_pos {n d : Nat} (hd : 0 < d) (hn : 0 < n) : 0 < (n + d - 1) / d :=
  Nat.div_pos (by omega) hd

/-- The columns are enough for all cells. -/
theorem size_le (h : 0 < g.rows) : g.cells.size ≤ g.columns * g.rows := by
  rw [Nat.mul_comm]
  exact (roundedUp_le_iff h).1 (Nat.le_refl g.columns)

/-- There is a cell in every column. -/
theorem lt_size (h : 0 < g.rows) {c : Nat} (hc : c < g.columns) : c * g.rows < g.cells.size := by
  by_contra hle
  have hle' : g.cells.size ≤ g.rows * c := by rw [Nat.mul_comm]; omega
  have : g.columns ≤ c := (roundedUp_le_iff h).2 hle'
  omega

theorem columns_pos (h : 0 < g.rows) (hcells : 0 < g.cells.size) : 0 < g.columns :=
  roundedUp_pos h hcells

theorem length_column (g : Grid) (c : Nat) :
    (g.column c).length = min g.rows (g.cells.size - c * g.rows) := by
  simp [column]

@[simp] theorem length_columnCells (g : Grid) : g.columnCells.length = g.columns := by
  simp [columnCells]

/-- The first columns hold the first cells. -/
theorem flatten_columns (g : Grid) (count : Nat) :
    ((List.range count).map g.column).flatten = g.cells.toList.take (count * g.rows) := by
  induction count with
  | zero => simp
  | succ count ih =>
    rw [List.range_succ, List.map_append, List.flatten_append, ih, Nat.succ_mul, List.take_add]
    simp [column]

/-- **Nothing is lost**: read column by column, the grid gives its cells in order. -/
theorem flatten_columnCells (h : 0 < g.rows) : g.columnCells.flatten = g.cells.toList := by
  rw [columnCells, flatten_columns]
  exact List.take_of_length_le (by simpa using size_le h)

/-- All columns but the last are full. -/
theorem columnCells_eq (h : 0 < g.rows) (hcells : 0 < g.cells.size) :
    ∃ front last, g.columnCells = front ++ [last] ∧ (∀ c ∈ front, c.length = g.rows) ∧
      0 < last.length ∧ last.length ≤ g.rows := by
  have hsome : 0 < g.columns := columns_pos h hcells
  obtain ⟨k, hk⟩ : ∃ k, g.columns = k + 1 := ⟨g.columns - 1, by omega⟩
  have hlast : k * g.rows < g.cells.size := lt_size h (by omega)
  refine ⟨(List.range k).map g.column, g.column k, ?_, ?_, ?_, ?_⟩
  · rw [columnCells, hk, List.range_succ, List.map_append]
    rfl
  · intro column hcolumn
    obtain ⟨c, hc, rfl⟩ := List.mem_map.1 hcolumn
    -- The next column starts no later than the last one, and there is a cell in that.
    have hnext : (c + 1) * g.rows ≤ k * g.rows :=
      Nat.mul_le_mul_right g.rows (List.mem_range.1 hc)
    rw [Nat.succ_mul] at hnext
    rw [length_column]
    omega
  · rw [length_column]
    omega
  · rw [length_column]
    omega

@[simp] theorem length_rowLines (g : Grid) : g.rowLines.length = g.rows := by
  simp [rowLines]

/-- A row goes across the columns and leaves out the one that is too short. -/
theorem row_eq {r : Nat} (hr : r < g.rows) : g.row r = g.columnCells.filterMap (·[r]?) := by
  rw [row, columnCells, List.filterMap_map]
  apply List.filterMap_congr
  intro c _
  simp [column, List.getElem?_drop, hr]

theorem rowLines_eq (g : Grid) :
    g.rowLines = (List.range g.rows).map fun r =>
      columnSeparator.intercalate (g.columnCells.filterMap (·[r]?)) := by
  apply List.map_congr_left
  intro r hr
  rw [row_eq (List.mem_range.1 hr)]

theorem row_subset {r : Nat} : g.row r ⊆ g.cells.toList := by
  intro cell hcell
  obtain ⟨c, -, hc⟩ := List.mem_filterMap.1 hcell
  simpa using Array.mem_of_getElem? hc

/-- There is a cell in every row. -/
theorem row_ne_nil (hle : g.rows ≤ g.cells.size) {r : Nat} (hr : r < g.rows) : g.row r ≠ [] := by
  -- The first column reaches down to every row.
  have hfirst : 0 < g.columns := columns_pos (by omega) (by omega)
  have hcell : g.cells[0 * g.rows + r]? = some (g.cells[r]) := by simp
  exact List.ne_nil_of_mem (List.mem_filterMap.2 ⟨0, List.mem_range.2 hfirst, hcell⟩)

theorem length_row_le (g : Grid) (r : Nat) : (g.row r).length ≤ g.columns := by
  have hle := List.length_filterMap_le (fun c => g.cells[c * g.rows + r]?) (List.range g.columns)
  rwa [List.length_range] at hle

/-! ## Grids for a width -/

/-- The width of the cells of a grid, as the first of them tells it. -/
def firstWidth (cells : Array String) : Nat := (cells[0]?.map String.length).getD 0

theorem firstWidth_eq {cellWidth : Nat} (hcells : 0 < cells.size)
    (h : ∀ cell ∈ cells.toList, cell.length = cellWidth) : firstWidth cells = cellWidth := by
  have hfirst : cells[0]? = some cells[0] := Array.getElem?_eq_getElem hcells
  rw [firstWidth, hfirst, Option.map_some, Option.getD_some]
  exact h _ (by simp)

theorem fit_pos (width cellWidth : Nat) : 0 < fit width cellWidth := by
  rw [fit]
  omega

theorem rows_ofCells_pos (hcells : 0 < cells.size) : 0 < (ofCells width cells).rows :=
  roundedUp_pos (fit_pos width _) hcells

theorem rows_ofCells_le (width : Nat) (cells : Array String) :
    (ofCells width cells).rows ≤ cells.size := by
  refine (roundedUp_le_iff (fit_pos width _)).2 ?_
  exact Nat.le_mul_of_pos_left cells.size (fit_pos width _)

/-! ## Grids of cells of one width -/

section OneWidth
variable {cellWidth : Nat}

/-- There are as few rows as the width allows. -/
theorem rows_ofCells_le_iff (hcells : 0 < cells.size)
    (h : ∀ cell ∈ cells.toList, cell.length = cellWidth) (n : Nat) :
    (ofCells width cells).rows ≤ n ↔ cells.size ≤ fit width cellWidth * n := by
  rw [← firstWidth_eq hcells h]
  exact roundedUp_le_iff (fit_pos width _)

/-- There are no more columns than fit. -/
theorem columns_ofCells_le (hcells : 0 < cells.size)
    (h : ∀ cell ∈ cells.toList, cell.length = cellWidth) :
    (ofCells width cells).columns ≤ fit width cellWidth := by
  refine (roundedUp_le_iff (rows_ofCells_pos hcells)).2 ?_
  rw [Nat.mul_comm]
  exact (rows_ofCells_le_iff hcells h _).1 (Nat.le_refl _)

/-- No row is empty. -/
theorem rowLine_ne_empty (h : ∀ cell ∈ g.cells.toList, cell.length = cellWidth)
    (hpos : 0 < cellWidth) (hle : g.rows ≤ g.cells.size) : ∀ line ∈ g.rowLines, line ≠ "" := by
  intro line hline hempty
  obtain ⟨r, hr, rfl⟩ := List.mem_map.1 hline
  have hwidth := le_length_intercalate (fun cell hcell => h cell (row_subset hcell))
    (row_ne_nil hle (List.mem_range.1 hr))
  rw [hempty, String.length_empty] at hwidth
  omega

/-- No row is wider than the terminal. -/
theorem length_rowLine_le (h : ∀ cell ∈ g.cells.toList, cell.length = cellWidth)
    (hfit : g.columns ≤ fit width cellWidth) (hmany : 1 < fit width cellWidth) :
    ∀ line ∈ g.rowLines, line.length ≤ width := by
  intro line hline
  obtain ⟨r, -, rfl⟩ := List.mem_map.1 hline
  exact length_intercalate_le (fun cell hcell => h cell (row_subset hcell))
    ((length_row_le g r).trans hfit) hmany

end OneWidth

end Grid

/-! ## Cells -/

/-- The cell shows the entry: the name at its left edge, the address at its right edge, and blanks
in between. -/
def CellShows (cell : String) (entry : String × Int) : Prop :=
  ∃ blanks, 0 < blanks ∧
    cell.toList = entry.1.toList ++ List.replicate blanks ' ' ++ (toString entry.2).toList

theorem toList_pushn (c : Char) (n : Nat) : ("".pushn c n).toList = List.replicate n c := by
  induction n with
  | zero => rfl
  | succ n ih =>
    have hstep : "".pushn c (n + 1) = ("".pushn c n).push c := rfl
    rw [hstep, String.toList_push, ih, List.replicate_succ']

theorem cellShows_listingCell (longest : Nat) (entry : String × Int) :
    CellShows (listingCell longest entry) entry := by
  refine ⟨longest - entry.1.length + 1 + (addressWidth - (toString entry.2).length), by omega, ?_⟩
  simp [listingCell, padAfter, padBefore, toList_pushn, List.replicate_add]

/-- Addresses below a hundred thousand have five digits at most. -/
theorem length_toString_le {address : Int} (hlow : 0 ≤ address) (hhigh : address ≤ 99999) :
    (toString address).length ≤ addressWidth := by
  obtain ⟨n, rfl⟩ := Int.eq_ofNat_of_zero_le hlow
  have hdigits : (Nat.toDigits 10 n).length ≤ addressWidth := by
    rw [addressWidth, Nat.length_toDigits_le_iff (by omega) (by omega)]
    omega
  have htext : toString (n : Int) = String.ofList (Nat.toDigits 10 n) :=
    Nat.toString_eq_ofList_toDigits
  rwa [htext, String.length_ofList]

theorem length_listingCell {longest : Nat} {entry : String × Int}
    (hname : entry.1.length ≤ longest) (haddress : (toString entry.2).length ≤ addressWidth) :
    (listingCell longest entry).length = longest + 6 := by
  have hspace : " ".length = 1 := by decide
  rw [listingCell, padAfter, padBefore, String.length_append, String.length_append,
    String.length_append, String.length_append, String.length_pushn, String.length_pushn,
    String.length_empty, hspace, addressWidth]
  rw [addressWidth] at haddress
  omega

/-- What stands above a column: a dash for each place of a name and of an address. -/
def columnRule (longest : Nat) : String := String.ofList (List.replicate longest '-') ++ " -----"

theorem listingRule_eq (longest : Nat) : listingRule longest = columnRule longest := by
  apply String.toList_injective
  simp [listingRule, columnRule, toList_pushn, addressWidth]

theorem length_columnRule (longest : Nat) : (columnRule longest).length = longest + 6 := by
  have haddress : " -----".length = 6 := by decide
  simp [columnRule, haddress]

/-! ## Entries in columns -/

/-- The entries stand in columns, top to bottom and left to right, under a header; the longest name
has `longest` characters. There are as few rows as the width allows, and the lines are no wider
than the terminal unless there is only one column. -/
structure Tabulates (width longest : Nat) (entries : List (String × Int))
    (columns : List (List String)) (header : String) (rows : List String) : Prop where
  cells : List.Forall₂ CellShows columns.flatten entries
  cell_length : ∀ cell ∈ columns.flatten, cell.length = longest + 6
  full : ∃ front last, columns = front ++ [last] ∧ (∀ c ∈ front, c.length = rows.length) ∧
    0 < last.length ∧ last.length ≤ rows.length
  header_eq : header = " | ".intercalate (List.replicate columns.length (columnRule longest))
  rows_eq : rows = (List.range rows.length).map fun r =>
    " | ".intercalate (columns.filterMap (·[r]?))
  row_ne : ∀ row ∈ rows, row ≠ ""
  rows_le_iff : ∀ n, rows.length ≤ n ↔
    entries.length ≤ max 1 ((width + 3) / (longest + 6 + 3)) * n
  columns_le : columns.length ≤ max 1 ((width + 3) / (longest + 6 + 3))
  fits : 1 < columns.length → header.length ≤ width ∧ ∀ row ∈ rows, row.length ≤ width

section Table
variable {width : Nat} {entries : List (String × Int)}

/-- The room for names is the length of the longest one. -/
theorem max?_length_eq (h : entries ≠ []) :
    ((entries.map Prod.fst).map String.length).max? = some (nameWidth entries) := by
  cases entries with
  | nil => exact absurd rfl h
  | cons entry entries =>
    rw [List.map_map, List.map_cons, List.max?_cons', List.foldl_map, nameWidth, List.foldl_cons,
      Nat.zero_max]
    rfl

theorem length_le_nameWidth {entry : String × Int} (h : entry ∈ entries) :
    entry.1.length ≤ nameWidth entries := by
  have hmax := max?_length_eq (List.ne_nil_of_mem h)
  exact (List.max?_eq_some_iff.1 hmax).2 _
    (List.mem_map_of_mem (List.mem_map_of_mem h))

theorem cells_listingGrid (width : Nat) (entries : List (String × Int)) :
    (listingGrid width entries).cells.toList = entries.map (listingCell (nameWidth entries)) :=
  List.toList_toArray

theorem size_listingGrid (width : Nat) (entries : List (String × Int)) :
    (listingGrid width entries).cells.size = entries.length := by
  rw [← Array.length_toList, cells_listingGrid, List.length_map]

/-- The cells of a listing all have one width. -/
theorem length_of_mem_cells (width : Nat)
    (haddress : ∀ entry ∈ entries, 0 ≤ entry.2 ∧ entry.2 ≤ 99999) :
    ∀ cell ∈ (listingGrid width entries).cells.toList, cell.length = nameWidth entries + 6 := by
  intro cell hcell
  rw [cells_listingGrid] at hcell
  obtain ⟨entry, hentry, rfl⟩ := List.mem_map.1 hcell
  obtain ⟨hlow, hhigh⟩ := haddress entry hentry
  exact length_listingCell (length_le_nameWidth hentry) (length_toString_le hlow hhigh)

/-- **A listing loses nothing and fits.** -/
theorem tabulates_listingGrid (hne : entries ≠ [])
    (haddress : ∀ entry ∈ entries, 0 ≤ entry.2 ∧ entry.2 ≤ 99999) :
    Tabulates width (nameWidth entries) entries (listingGrid width entries).columnCells
      (columnSeparator.intercalate
        (List.replicate (listingGrid width entries).columns (listingRule (nameWidth entries))))
      (listingGrid width entries).rowLines := by
  have hlength := length_of_mem_cells width haddress
  have hcells : 0 < (listingGrid width entries).cells.size := by
    rw [size_listingGrid]
    exact List.length_pos_iff.2 hne
  have hrows : 0 < (listingGrid width entries).rows := Grid.rows_ofCells_pos hcells
  have hfit : (listingGrid width entries).columns ≤ Grid.fit width (nameWidth entries + 6) :=
    Grid.columns_ofCells_le hcells hlength
  constructor
  case cells =>
    rw [Grid.flatten_columnCells hrows, cells_listingGrid, List.forall₂_map_left_iff]
    exact List.forall₂_same.2 fun entry _ => cellShows_listingCell _ entry
  case cell_length => rwa [Grid.flatten_columnCells hrows]
  case full =>
    rw [Grid.length_rowLines]
    exact Grid.columnCells_eq hrows hcells
  case header_eq =>
    rw [Grid.length_columnCells, listingRule_eq]
    rfl
  case rows_eq =>
    rw [Grid.length_rowLines]
    exact Grid.rowLines_eq _
  case row_ne => exact Grid.rowLine_ne_empty hlength (by omega) (Grid.rows_ofCells_le width _)
  case rows_le_iff =>
    intro n
    rw [Grid.length_rowLines, ← size_listingGrid width entries]
    exact Grid.rows_ofCells_le_iff hcells hlength n
  case columns_le => rwa [Grid.length_columnCells]
  case fits =>
    intro hmany
    rw [Grid.length_columnCells] at hmany
    have hside : 1 < Grid.fit width (nameWidth entries + 6) := by omega
    refine ⟨length_intercalate_le ?_ ?_ hside, Grid.length_rowLine_le hlength hfit hside⟩
    · intro rule hrule
      rw [List.eq_of_mem_replicate hrule, listingRule_eq, length_columnRule]
    · rwa [List.length_replicate]

end Table

/-! ## Names in order -/

namespace SymbolTable
variable {t : SymbolTable} {names : List String} {order : ListingOrder}

/-- The names with their addresses in the order of a listing; names that the order does not tell
apart keep their places among each other. -/
structure Arranges (t : SymbolTable) (order : ListingOrder) (names : List String)
    (entries : List (String × Int)) : Prop where
  addresses : ∀ entry ∈ entries, t.address? entry.1 = some entry.2
  sorted : match order with
    | .byName => StablySorted Text.upper names (entries.map Prod.fst)
    | .byValue => StablySorted (fun name => (t.address? name).getD 0) names (entries.map Prod.fst)

namespace Arranges
variable {entries : List (String × Int)} (h : t.Arranges order names entries)
include h

/-- No name is lost or shown twice. -/
theorem perm : (entries.map Prod.fst).Perm names := by
  cases order with
  | byName => exact h.sorted.perm
  | byValue => exact h.sorted.perm

theorem ne_nil (hne : names ≠ []) : entries ≠ [] := by
  intro hnil
  subst hnil
  exact hne h.perm.symm.eq_nil

theorem exists_address {name : String} (hname : name ∈ names) :
    ∃ address, t.address? name = some address := by
  obtain ⟨found, hfound, rfl⟩ := List.mem_map.1 (h.perm.mem_iff.2 hname)
  exact ⟨found.2, h.addresses found hfound⟩

/-- What holds of the addresses of all names holds of the addresses that are shown. -/
theorem forall_address {p : Int → Prop}
    (hp : ∀ name ∈ names, ∃ address, t.address? name = some address ∧ p address) :
    ∀ entry ∈ entries, p entry.2 := by
  intro entry hentry
  have hname : entry.1 ∈ names := h.perm.mem_iff.1 (List.mem_map_of_mem hentry)
  obtain ⟨address, hsome, haddress⟩ := hp entry.1 hname
  rw [h.addresses entry hentry] at hsome
  cases hsome
  exact haddress

/-- The order of the names does not matter for the longest one. -/
theorem max?_length_names (hne : names ≠ []) :
    (names.map String.length).max? = some (nameWidth entries) := by
  have hmax := List.max?_eq_some_iff.1 (max?_length_eq (h.ne_nil hne))
  have hperm := h.perm.map String.length
  rw [List.max?_eq_some_iff]
  exact ⟨hperm.mem_iff.1 hmax.1, fun n hn => hmax.2 n (hperm.mem_iff.2 hn)⟩

end Arranges

theorem contains_of_address? {name : String} {address : Int}
    (h : t.address? name = some address) : t.contains name = true := by
  obtain ⟨b, hb, -⟩ := Option.map_eq_some_iff.1 h
  rw [contains, Std.TreeMap.contains_eq_isSome_getElem?]
  exact Option.isSome_of_mem hb

theorem entry_eq_ok {name : String} {found : String × Int} (h : t.entry name = .ok found) :
    found.1 = name ∧ t.address? name = some found.2 := by
  rw [entry] at h
  split at h
  case h_1 address haddress =>
    cases h
    exact ⟨rfl, haddress⟩
  case h_2 => cases h

theorem entry_eq_error {name : String} {unbound : Unbound} (h : t.entry name = .error unbound) :
    unbound.name = name ∧ t.address? name = none := by
  rw [entry] at h
  split at h
  case h_1 => cases h
  case h_2 haddress =>
    cases h
    exact ⟨rfl, haddress⟩

/-- Names that are looked up one by one are all there, each with its address. -/
theorem mapM_entry_eq_ok {entries : List (String × Int)} (h : names.mapM t.entry = .ok entries) :
    entries.map Prod.fst = names ∧ ∀ found ∈ entries, t.address? found.1 = some found.2 := by
  have hall := forall₂_of_mapM_eq_ok t.entry h
  clear h
  induction hall with
  | nil => simp
  | cons hfound _ ih =>
    obtain ⟨rfl, haddress⟩ := entry_eq_ok hfound
    rw [List.map_cons, ih.1, List.forall_mem_cons]
    exact ⟨rfl, haddress, ih.2⟩

/-- Names are arranged with their addresses. -/
theorem arranges_of_arrange {entries : List (String × Int)}
    (h : t.arrange order names = .ok entries) : t.Arranges order names entries := by
  cases order with
  | byName =>
    obtain ⟨hnames, haddresses⟩ := mapM_entry_eq_ok h
    refine ⟨haddresses, ?_⟩
    rw [hnames]
    exact stablySorted_sortNames names
  | byValue =>
    cases hlisted : names.mapM t.entry with
    | error unbound =>
      rw [arrange, hlisted] at h
      cases h
    | ok listed =>
      rw [arrange, hlisted] at h
      cases h
      obtain ⟨hnames, haddresses⟩ := mapM_entry_eq_ok hlisted
      have hsorted := stablySorted_sortEntries listed
      refine ⟨fun found hfound => haddresses found (hsorted.perm.mem_iff.1 hfound), ?_⟩
      rw [← hnames]
      -- The entries are sorted by what they hold, which is what the table says of the names.
      refine hsorted.map _ Prod.fst ?_
      intro found hfound
      rw [haddresses found hfound]
      rfl

/-- What cannot be arranged has a name without an address. -/
theorem unbound_of_arrange {unbound : Unbound} (h : t.arrange order names = .error unbound) :
    unbound.name ∈ names ∧ t.address? unbound.name = none := by
  have hlookup : ∃ name ∈ names, t.entry name = .error unbound := by
    cases order with
    | byName =>
      obtain ⟨name, hname, herror⟩ := exists_of_mapM_eq_error t.entry h
      exact ⟨name, (sortNames_perm names).mem_iff.1 hname, herror⟩
    | byValue =>
      cases hlisted : names.mapM t.entry with
      | error unbound' =>
        rw [arrange, hlisted] at h
        cases h
        exact exists_of_mapM_eq_error t.entry hlisted
      | ok listed =>
        rw [arrange, hlisted] at h
        cases h
  obtain ⟨name, hname, herror⟩ := hlookup
  obtain ⟨rfl, hnone⟩ := entry_eq_error herror
  exact ⟨hname, hnone⟩

/-! ## Listings -/

theorem listing_of_ne_nil (hne : names ≠ []) (width : Nat) (title : String)
    (order : ListingOrder) :
    t.listing width title order names = (t.arrange order names).map fun entries =>
      unlines ((title ++ order.caption) :: listingLines width entries) := by
  rw [listing, if_neg (by simpa using hne)]
  cases t.arrange order names <;> rfl

end SymbolTable

end HackAssembler
