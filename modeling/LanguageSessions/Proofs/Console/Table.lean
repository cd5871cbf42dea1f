import LanguageSessions.Proofs.Console.Wrap
import Mathlib.Algebra.Order.BigOperators.Group.List
import Mathlib.Algebra.Order.Group.Nat
import Mathlib.Data.List.Forall2

/-!
# Tables with room

Where there is room for all that a table holds, each column is as wide as its widest text, and the lines of the table
are those of `lines_of_room`: every row takes one line, in which the text of each cell stands as it is, with blanks
beside it.
-/

namespace LanguageSessions.Console.Table

open Text

-- Sums begin with the number nought itself, whatever else has one.
attribute [local instance (high)] Zero.ofOfNat0

/-! ## Columns -/

/-- The width of a column that has room. -/
def fullWidth (column : Column) : Nat :=
  ((column.head :: column.cells).map Console.cells).foldl max 0 + padding

/-- The width of a table that has room. -/
def totalWidth (table : Table) : Nat := (table.columns.map fullWidth).sum + table.frameWidth

/-- The texts of a column can be read in one line each, and its width is that of its cells. -/
structure LegibleColumn (column : Column) : Prop where
  texts : ∀ text ∈ column.head :: column.cells,
    Legible text ∧ (column.justify = .center ∨ column.justify = .right → EndsWithInk text)
  head_pos : 0 < Console.cells column.head
  justify : column.justify ≠ .loose

section Columns

variable {column : Column} {text : List Char}

theorem textWidth_of_flat (h : Flat text) : textWidth text = Console.cells text := by
  have hfold : ∀ used, text.foldl (fun (found : Nat × Nat) c =>
      if endsLine c then (0, max found.1 found.2) else (found.1 + cellsOf c, found.2)) (used, 0) =
        (used + Console.cells text, 0) := by
    induction text with
    | nil => exact fun _ => rfl
    | cons c text ih =>
      rw [Flat, List.forall_mem_cons] at h
      intro used
      rw [List.foldl_cons, if_neg (by simp [h.1]), ih h.2, cells_cons, Nat.add_assoc]
  rw [textWidth, hfold 0]
  simp

theorem le_foldl_max (numbers : List Nat) (start : Nat) :
    start ≤ numbers.foldl max start ∧ ∀ n ∈ numbers, n ≤ numbers.foldl max start := by
  induction numbers generalizing start with
  | nil => exact ⟨Nat.le_refl _, nofun⟩
  | cons n numbers ih =>
    obtain ⟨hstart, hall⟩ := ih (max start n)
    rw [List.foldl_cons, List.forall_mem_cons]
    exact ⟨by omega, by omega, hall⟩

theorem cells_le_fullWidth (h : text ∈ column.head :: column.cells) :
    Console.cells text ≤ fullWidth column - padding := by
  rw [fullWidth, Nat.add_sub_cancel]
  exact (le_foldl_max _ 0).2 _ (List.mem_map_of_mem h)

theorem LegibleColumn.padding_lt (h : LegibleColumn column) : padding < fullWidth column := by
  have hhead : Console.cells column.head ≤ fullWidth column - padding := cells_le_fullWidth List.mem_cons_self
  have hpos := h.head_pos
  omega

theorem wantedWidth_of_room (h : LegibleColumn column) {room : Nat} (hroom : fullWidth column ≤ room) :
    wantedWidth room column = fullWidth column := by
  have hwidths : (column.head :: column.cells).map textWidth = (column.head :: column.cells).map Console.cells :=
    List.map_congr_left fun text hm => textWidth_of_flat (h.texts text hm).1.flat
  have hpadding := h.padding_lt
  rw [wantedWidth, if_neg (by omega), if_neg (by omega), hwidths]
  exact Nat.min_eq_right hroom

end Columns

theorem widths_of_room {table : Table} (h : ∀ column ∈ table.columns, LegibleColumn column) {width : Nat}
    (hroom : table.totalWidth ≤ width) : table.widths (width - table.frameWidth) = table.columns.map fullWidth := by
  rw [totalWidth] at hroom
  have hwanted : (table.columns.map fun column => max 1 (wantedWidth (width - table.frameWidth) column)) =
      table.columns.map fullWidth := by
    refine List.map_congr_left fun column hm => ?_
    have hle : fullWidth column ≤ (table.columns.map fullWidth).sum := List.le_sum_of_mem (List.mem_map_of_mem hm)
    have hpadding := (h column hm).padding_lt
    rw [wantedWidth_of_room (h column hm) (by omega)]
    omega
  rw [widths, hwanted]
  exact if_pos (by omega)

/-! ## Rows -/

/-- A cell of a given width in one line: its text, with blanks beside it. -/
def cell (entry : Nat × Justify × List Char) : List Char :=
  ' ' :: aligned (entry.1 - padding) entry.2.1 entry.2.2 ++ [' ']

/-- A row in one line: its cells between edges. -/
def plainRow (edge : Char) (widths : List Nat) (row : List (Justify × List Char)) : List Char :=
  edge :: joinWith [edge] ((widths.zip row).map cell) ++ [edge]

/-- A text has room in a cell. -/
structure HasRoom (width : Nat) (entry : Justify × List Char) : Prop where
  legible : Legible entry.2
  fits : padding + Console.cells entry.2 ≤ width
  wide : padding < width
  ink : entry.1 = .center ∨ entry.1 = .right → EndsWithInk entry.2
  justify : entry.1 ≠ .loose

section Rows

variable {widths : List Nat} {row : List (Justify × List Char)} {edge : Char}

theorem HasRoom.cellLines {width : Nat} {entry : Justify × List Char} (h : HasRoom width entry) :
    cellLines width entry.1 entry.2 = [cell (width, entry)] := by
  have hfits := h.fits
  rw [Table.cellLines, if_neg (Nat.not_le.2 h.wide), h.legible.wrap (by omega) h.ink, List.map_singleton]
  rfl

theorem HasRoom.cells_cell {width : Nat} {entry : Justify × List Char} (h : HasRoom width entry) :
    Console.cells (cell (width, entry)) = width := by
  have hfits := h.fits
  have hinside : Console.cells entry.2 ≤ width - padding := by omega
  have hblank : cellsOf ' ' = 1 := by decide
  have hpadding : padding = 2 := rfl
  rw [cell, List.cons_append, cells_cons, cells_append, cells_aligned hinside h.justify, cells_cons, cells_nil, hblank]
  omega

/-- A row in which every text has room takes one line. -/
theorem rowLines_of_room (h : List.Forall₂ HasRoom widths row) :
    rowLines edge widths row = [plainRow edge widths row] := by
  have hcells : ((widths.zip row).map fun entry => (entry.1, cellLines entry.1 entry.2.1 entry.2.2)) =
      (widths.zip row).map fun entry => (entry.1, [cell entry]) := by
    refine List.map_congr_left fun entry hm => ?_
    rw [((List.forall₂_iff_zip.1 h).2 hm).cellLines]
  have hheight : ((widths.zip row).map fun _ => 1).foldl max 1 = 1 := by
    induction widths.zip row with
    | nil => rfl
    | cons entry entries ih => exact ih
  rw [rowLines, hcells, plainRow]
  simp only [List.map_map, Function.comp_def, List.length_singleton, hheight]
  rfl

theorem joinWith_cons_cons (separator piece next : List Char) (pieces : List (List Char)) :
    joinWith separator (piece :: next :: pieces) = piece ++ separator ++ joinWith separator (next :: pieces) := rfl

theorem cells_joinWith {separator : Char} (hseparator : cellsOf separator = 1) {pieces : List (List Char)}
    (hne : pieces ≠ []) :
    Console.cells (joinWith [separator] pieces) + 1 = (pieces.map Console.cells).sum + pieces.length := by
  induction pieces with
  | nil => exact absurd rfl hne
  | cons piece pieces ih =>
    cases pieces with
    | nil => simp [joinWith]
    | cons next pieces =>
      have ih := ih (List.cons_ne_nil _ _)
      rw [joinWith_cons_cons, cells_append, cells_append, cells_cons, cells_nil, hseparator, List.map_cons,
        List.sum_cons, List.length_cons]
      omega

/-- What stands between two edges, with separators, takes the cells of its pieces and one more for each of these. -/
theorem cells_framed {left separator right : Char} (hleft : cellsOf left = 1) (hseparator : cellsOf separator = 1)
    (hright : cellsOf right = 1) {pieces : List (List Char)} (hne : pieces ≠ []) :
    Console.cells (left :: joinWith [separator] pieces ++ [right]) =
      (pieces.map Console.cells).sum + (pieces.length + 1) := by
  have hjoin := cells_joinWith hseparator hne
  rw [List.cons_append, cells_cons, cells_append, cells_cons, cells_nil, hleft, hright]
  omega

theorem cells_rule {left dash separator right : Char} (hleft : cellsOf left = 1) (hdash : cellsOf dash = 1)
    (hseparator : cellsOf separator = 1) (hright : cellsOf right = 1) (hne : widths ≠ []) :
    Console.cells (rule left dash separator right widths) = widths.sum + (widths.length + 1) := by
  have hpieces : (widths.map fun width => List.replicate width dash).map Console.cells = widths := by
    simp [Function.comp_def, cells_replicate hdash]
  rw [rule, cells_framed hleft hseparator hright (by simpa using hne), hpieces, List.length_map]

theorem cells_plainRow (hedge : cellsOf edge = 1) (hne : widths ≠ []) (h : List.Forall₂ HasRoom widths row) :
    Console.cells (plainRow edge widths row) = widths.sum + (widths.length + 1) := by
  have hpieces : ((widths.zip row).map cell).map Console.cells = widths := by
    calc ((widths.zip row).map cell).map Console.cells
        = (widths.zip row).map Prod.fst := by
          rw [List.map_map]
          exact List.map_congr_left fun entry hm => ((List.forall₂_iff_zip.1 h).2 hm).cells_cell
      _ = widths := List.map_fst_zip (Nat.le_of_eq h.length_eq)
  have hpiecesNe : (widths.zip row).map cell ≠ [] := by
    intro hnil
    rw [hnil] at hpieces
    exact hne hpieces.symm
  rw [plainRow, cells_framed hedge hedge hedge hpiecesNe, hpieces, List.length_map, List.length_zip, ← h.length_eq,
    Nat.min_self]

end Rows

/-! ## Tables -/

section Tables

variable {table : Table} {width : Nat}

theorem LegibleColumn.hasRoom {column : Column} (h : LegibleColumn column) {text : List Char}
    (hm : text ∈ column.head :: column.cells) : HasRoom (fullWidth column) (column.justify, text) where
  legible := (h.texts text hm).1
  fits := by
    have hle := cells_le_fullWidth hm
    have hlt := h.padding_lt
    dsimp only
    omega
  wide := h.padding_lt
  ink := (h.texts text hm).2
  justify := h.justify

/-- A column may be shorter than others; nothing stands in it then. -/
theorem LegibleColumn.hasRoom_missing {column : Column} (h : LegibleColumn column) :
    HasRoom (fullWidth column) (column.justify, []) where
  legible := ⟨nofun, .inl (Nat.le_refl 0)⟩
  fits := Nat.le_of_lt h.padding_lt
  wide := h.padding_lt
  ink := fun _ => nofun
  justify := h.justify

theorem hasRoom_head (h : ∀ column ∈ table.columns, LegibleColumn column) :
    List.Forall₂ HasRoom (table.columns.map fullWidth)
      (table.columns.map fun column => (column.justify, column.head)) := by
  rw [List.forall₂_map_left_iff, List.forall₂_map_right_iff, List.forall₂_same]
  exact fun column hm => (h column hm).hasRoom List.mem_cons_self

theorem hasRoom_row (h : ∀ column ∈ table.columns, LegibleColumn column) {row : List (Justify × List Char)}
    (hm : row ∈ table.rows) : List.Forall₂ HasRoom (table.columns.map fullWidth) row := by
  obtain ⟨n, -, rfl⟩ := List.mem_map.1 hm
  rw [List.forall₂_map_left_iff, List.forall₂_map_right_iff, List.forall₂_same]
  intro column hm
  cases hcell : column.cells[n]? with
  | none => exact (h column hm).hasRoom_missing
  | some text => exact (h column hm).hasRoom (List.mem_cons_of_mem _ (List.mem_of_getElem? hcell))

/-- The lines of a table that has room: its title over the middle, its head and each of its rows in one line, and rules
around them. -/
def plainLines (table : Table) : List (List Char) :=
  let widths := table.columns.map fullWidth
  [aligned table.totalWidth .center table.title, rule '┏' '━' '┳' '┓' widths,
    plainRow '┃' widths (table.columns.map fun column => (column.justify, column.head)), rule '┡' '━' '╇' '┩' widths] ++
  table.rows.map (plainRow '│' widths) ++ [rule '└' '─' '┴' '┘' widths]

/-- Every line of a table that has room is as wide as the table. -/
theorem cells_of_mem_plainLines (hne : table.columns ≠ []) (h : ∀ column ∈ table.columns, LegibleColumn column)
    (hfits : Console.cells table.title ≤ table.totalWidth) {line : List Char} (hm : line ∈ table.plainLines) :
    Console.cells line = table.totalWidth := by
  have hwidths : table.columns.map fullWidth ≠ [] := by simpa using hne
  have htotal : (table.columns.map fullWidth).sum + ((table.columns.map fullWidth).length + 1) = table.totalWidth := by
    rw [List.length_map]
    rfl
  simp only [plainLines, List.mem_append, List.mem_cons, List.mem_map, List.not_mem_nil, or_false] at hm
  rcases hm with ((rfl | rfl | rfl | rfl) | ⟨row, hrow, rfl⟩) | rfl
  · exact cells_aligned hfits (by decide)
  · rw [cells_rule (by decide) (by decide) (by decide) (by decide) hwidths, htotal]
  · rw [cells_plainRow (by decide) hwidths (hasRoom_head h), htotal]
  · rw [cells_rule (by decide) (by decide) (by decide) (by decide) hwidths, htotal]
  · rw [cells_plainRow (by decide) hwidths (hasRoom_row h hrow), htotal]
  · rw [cells_rule (by decide) (by decide) (by decide) (by decide) hwidths, htotal]

/-- **A table that has room is drawn in plain lines.** -/
theorem lines_of_room (hne : table.columns ≠ []) (h : ∀ column ∈ table.columns, LegibleColumn column)
    (htitle : Legible table.title) (hink : EndsWithInk table.title)
    (hfits : Console.cells table.title ≤ table.totalWidth) (hroom : table.totalWidth ≤ width) :
    table.lines width = table.plainLines := by
  have hwidths : table.widths (width - table.frameWidth) = table.columns.map fullWidth := widths_of_room h hroom
  have htotal : (table.columns.map fullWidth).sum + table.frameWidth = table.totalWidth := rfl
  have hwrap : wrap table.totalWidth .center .fold table.title = [aligned table.totalWidth .center table.title] :=
    htitle.wrap hfits fun _ => hink
  have hrows : table.rows.flatMap (rowLines '│' (table.columns.map fullWidth)) =
      table.rows.map (plainRow '│' (table.columns.map fullWidth)) := by
    rw [List.flatMap_congr fun row hm => rowLines_of_room (hasRoom_row h hm)]
    exact List.flatMap_pure_eq_map _ _
  have hdrawn : table.lines width = table.plainLines.map (fitting width) := by
    rw [lines, hwidths, htotal, hwrap, rowLines_of_room (hasRoom_head h), hrows]
    rfl
  calc table.lines width = table.plainLines.map (fitting width) := hdrawn
    _ = table.plainLines.map id := by
      refine List.map_congr_left fun line hm => fitting_of_fits ?_
      rw [cells_of_mem_plainLines hne h hfits hm]
      exact hroom
    _ = table.plainLines := List.map_id _

end Tables

/-! ## Tables about items -/

/-- A column about items: its head, how it is justified, and what stands in it about an item. -/
structure Feature (α : Type) where
  head : String
  justify : Justify
  text : α → List Char

/-- A table with a row for each item and a column for each feature. -/
def ofItems {α : Type} (title : String) (features : List (Feature α)) (items : List α) : Table :=
  ⟨title.toList, features.map fun feature => ⟨feature.head.toList, feature.justify, items.map feature.text⟩⟩

/-- Each item has its row, in the order of the items. -/
theorem rows_ofItems {α : Type} (title : String) {features : List (Feature α)} (hne : features ≠ []) (items : List α) :
    (ofItems title features items).rows =
      items.map fun item => features.map fun feature => (feature.justify, feature.text item) := by
  have hheight : (((ofItems title features items).columns.map fun column => column.cells.length).foldl max 0) =
      items.length := by
    obtain ⟨feature, others, rfl⟩ := List.exists_cons_of_ne_nil hne
    have hall : ∀ rest : List (Feature α), (rest.map fun _ => items.length).foldl max items.length = items.length := by
      intro rest
      induction rest with
      | nil => rfl
      | cons feature rest ih => simpa using ih
    simpa [ofItems, Function.comp_def] using hall others
  rw [rows, hheight]
  refine List.ext_getElem (by simp) fun n hn hn' => ?_
  simp [ofItems, List.getElem?_eq_getElem (by simpa using hn')]

/-- What a feature says about items can be read in one line each, and so can its head. -/
structure LegibleFeature {α : Type} (items : List α) (feature : Feature α) : Prop where
  head : Legible feature.head.toList
  head_pos : 0 < Console.cells feature.head.toList
  texts : ∀ item ∈ items, Legible (feature.text item)
  ink : feature.justify = .center ∨ feature.justify = .right →
    EndsWithInk feature.head.toList ∧ ∀ item ∈ items, EndsWithInk (feature.text item)
  justify : feature.justify ≠ .loose

section Items

variable {α : Type} {title : String} {features : List (Feature α)} {items : List α}

theorem legibleColumn_ofItems (h : ∀ feature ∈ features, LegibleFeature items feature) :
    ∀ column ∈ (ofItems title features items).columns, LegibleColumn column := by
  intro column hm
  obtain ⟨feature, hfeature, rfl⟩ := List.mem_map.1 hm
  have hlegible := h feature hfeature
  refine ⟨fun text htext => ?_, hlegible.head_pos, hlegible.justify⟩
  rcases List.mem_cons.1 htext with rfl | htext
  · exact ⟨hlegible.head, fun hjustify => (hlegible.ink hjustify).1⟩
  · obtain ⟨item, hitem, rfl⟩ := List.mem_map.1 htext
    exact ⟨hlegible.texts item hitem, fun hjustify => (hlegible.ink hjustify).2 item hitem⟩

/-- A table is at least as wide as its heads. -/
theorem heads_le_totalWidth (title : String) (features : List (Feature α)) (items : List α) :
    ((features.map Feature.head).map fun head => Console.cells head.toList).sum ≤
      (ofItems title features items).totalWidth := by
  have hcolumns : (ofItems title features items).columns.map (fun column => Console.cells column.head) =
      (features.map Feature.head).map fun head => Console.cells head.toList := by
    simp [ofItems]
  have hle : ((ofItems title features items).columns.map fun column => Console.cells column.head).sum ≤
      ((ofItems title features items).columns.map fullWidth).sum := by
    refine List.sum_le_sum fun column _ => ?_
    exact Nat.le_trans (cells_le_fullWidth List.mem_cons_self) (Nat.sub_le _ _)
  rw [hcolumns] at hle
  exact Nat.le_trans hle (Nat.le_add_right _ _)

/-- **A table about items that has room is drawn in plain lines.** -/
theorem lines_ofItems (hne : features ≠ []) (h : ∀ feature ∈ features, LegibleFeature items feature)
    (htitle : Legible title.toList ∧ EndsWithInk title.toList)
    (hfits : Console.cells title.toList ≤ ((features.map Feature.head).map fun head => Console.cells head.toList).sum)
    {width : Nat} (hroom : (ofItems title features items).totalWidth ≤ width) :
    (ofItems title features items).lines width = (ofItems title features items).plainLines := by
  have hcolumns : (ofItems title features items).columns ≠ [] := by simpa [ofItems] using hne
  exact lines_of_room hcolumns (legibleColumn_ofItems h) htitle.1 htitle.2
    (Nat.le_trans hfits (heads_le_totalWidth title features items)) hroom

end Items

end LanguageSessions.Console.Table
