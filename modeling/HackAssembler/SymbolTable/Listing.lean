import HackAssembler.SymbolTable.Basic
import HackAssembler.Text.Quoted
import HackAssembler.Text.UpperCase

/-!
# Symbol listings

Names with their addresses, in as many columns as fit across the terminal. The cells run down
the columns, and only the last column may be short.

## Main definitions

* `Grid` — cells and the number of rows; `Grid.row` reads one row across the columns.
* `SymbolTable.arrange` — the names with their addresses, in the order of the listing.
* `SymbolTable.listing` — the text of one listing.
* `SymbolTable.overview` — the four listings of a whole table.
* `SymbolTable.toldListing`, `SymbolTable.toldOverview` — the same for tables in which any address
  may stand, also one that is too long to be told.
-/

namespace HackAssembler

/-! ## Grids -/

/-- What stands between two columns. -/
def columnSeparator : String := " | "

/-- Cells that run down columns of `rows` cells each. -/
structure Grid where
  cells : Array String
  rows : Nat
deriving DecidableEq, Repr

namespace Grid

/-- The number of cells of this width that fit side by side, and at least one. -/
def fit (width cellWidth : Nat) : Nat :=
  max 1 ((width + columnSeparator.length) / (cellWidth + columnSeparator.length))

/-- The grid with as few rows as the width allows; the first cell stands for the width of
all of them. -/
def ofCells (width : Nat) (cells : Array String) : Grid :=
  let n := fit width ((cells[0]?.map String.length).getD 0)
  ⟨cells, (cells.size + n - 1) / n⟩

/-- The number of columns, the last of which may be short. -/
def columns (g : Grid) : Nat := (g.cells.size + g.rows - 1) / g.rows

/-- The cells in a row, from left to right. -/
def row (g : Grid) (r : Nat) : List String :=
  (List.range g.columns).filterMap fun c => g.cells[c * g.rows + r]?

/-- The rows from top to bottom, each as a line. -/
def rowLines (g : Grid) : List String :=
  (List.range g.rows).map fun r => columnSeparator.intercalate (g.row r)

end Grid

/-! ## Listings -/

/-- A name in a listing that has no address. -/
structure Unbound where
  name : String
deriving DecidableEq, Repr

/-- The name in quotes. -/
def Unbound.message (u : Unbound) : String := Text.Quoted.render u.name

/-- What a listing is sorted by. -/
inductive ListingOrder where
  | byName
  | byValue
deriving DecidableEq, Repr

/-- How the order is told in the title. -/
def ListingOrder.caption : ListingOrder → String
  | .byName => " (by name)"
  | .byValue => " (by value)"

/-- The text and blanks after it up to the width. -/
def padAfter (width : Nat) (s : String) : String := s ++ "".pushn ' ' (width - s.length)

/-- The text and blanks in front of it up to the width. -/
def padBefore (width : Nat) (s : String) : String := "".pushn ' ' (width - s.length) ++ s

/-- Addresses are given this many places. -/
def addressWidth : Nat := 5

/-- A name and its address as a cell. -/
def listingCell (nameWidth : Nat) (entry : String × Int) : String :=
  padAfter nameWidth entry.1 ++ " " ++ padBefore addressWidth (toString entry.2)

/-- The rule above a column. -/
def listingRule (nameWidth : Nat) : String :=
  "".pushn '-' nameWidth ++ " " ++ "".pushn '-' addressWidth

/-- The names in the order of their upper-casing; names that differ only in case keep their
order. -/
def sortNames (names : List String) : List String :=
  ((names.map fun name => (Text.upper name, name)).mergeSort fun a b => a.1 ≤ b.1).map (·.2)

/-- Entries in the order of their addresses; those with one address keep their order. -/
def sortEntries (entries : List (String × Int)) : List (String × Int) :=
  entries.mergeSort fun a b => a.2 ≤ b.2

namespace SymbolTable

/-- The name with its address. -/
def entry (t : SymbolTable) (name : String) : Except Unbound (String × Int) :=
  match t.address? name with
  | some address => .ok (name, address)
  | none => .error ⟨name⟩

/-- The names with their addresses, sorted. A listing by name looks the names up after it has
sorted them, a listing by value before. -/
def arrange (t : SymbolTable) (order : ListingOrder) (names : List String) :
    Except Unbound (List (String × Int)) :=
  match order with
  | .byName => (sortNames names).mapM t.entry
  | .byValue => (names.mapM t.entry).map sortEntries

end SymbolTable

/-- The longest name. -/
def nameWidth (entries : List (String × Int)) : Nat :=
  entries.foldl (fun n e => max n e.1.length) 0

/-- The grid of a listing. -/
def listingGrid (width : Nat) (entries : List (String × Int)) : Grid :=
  .ofCells width (entries.map (listingCell (nameWidth entries))).toArray

/-- The lines of a listing below its title. -/
def listingLines (width : Nat) (entries : List (String × Int)) : List String :=
  let grid := listingGrid width entries
  columnSeparator.intercalate (List.replicate grid.columns (listingRule (nameWidth entries))) ::
    grid.rowLines ++ [""]

/-- Text with the lines one below the other. -/
def unlines (lines : List String) : String := String.join (lines.map (· ++ "\n"))

namespace SymbolTable

/-- A listing of some names, for a terminal of the given width. No names, no listing. -/
def listing (t : SymbolTable) (width : Nat) (title : String) (order : ListingOrder)
    (names : List String) : Except Unbound String :=
  if names.isEmpty then .ok ""
  else do
    let entries ← t.arrange order names
    return unlines ((title ++ order.caption) :: listingLines width entries)

/-- All listings of a table, made with whatever makes one. -/
def overviewWith {ε : Type} (t : SymbolTable)
    (list : String → ListingOrder → List String → Except ε String) : Except ε String := do
  let predefined ← list "Predefined Symbols" .byName predefinedNames
  let branches ← list "Branch Addresses" .byName t.labelNames
  let addresses ← list "Branch Addresses" .byValue t.labelNames
  let slots ← list "Implicitly defined variables (in @statements)" .byName t.variableNames
  return "\n" ++ predefined ++ branches ++ addresses ++ slots

/-- All listings of a table. -/
def overview (t : SymbolTable) (width : Nat) : Except Unbound String :=
  t.overviewWith (t.listing width)

/-! ## Addresses of any length -/

/-- The entry can be told. -/
def tellEntry (entry : String × Int) : Except (Stop Unbound) (String × Int) :=
  if Text.Writable entry.2 then .ok entry else .error .unwritable

/-- The names with their addresses, sorted, provided that every address can be told. A listing by
name tells each address as it is looked up, a listing by value only after all of them. -/
def arrangeTold (t : SymbolTable) (order : ListingOrder) (names : List String) :
    Except (Stop Unbound) (List (String × Int)) :=
  match order with
  | .byName => (sortNames names).mapM fun name => do tellEntry (← (t.entry name).mapError .fault)
  | .byValue => do
    let entries ← (names.mapM t.entry).mapError .fault
    (sortEntries entries).mapM tellEntry

/-- A listing of some names, provided that it can be told. -/
def toldListing (t : SymbolTable) (width : Nat) (title : String) (order : ListingOrder)
    (names : List String) : Except (Stop Unbound) String :=
  if names.isEmpty then .ok ""
  else do
    let entries ← t.arrangeTold order names
    return unlines ((title ++ order.caption) :: listingLines width entries)

/-- All listings of a table, provided that they can be told. -/
def toldOverview (t : SymbolTable) (width : Nat) : Except (Stop Unbound) String :=
  t.overviewWith (t.toldListing width)

end SymbolTable
end HackAssembler
