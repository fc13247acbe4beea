import Vacps.Agent.TerminalScreen

/- Whatever is fed to a terminal screen and however it is resized, its grid keeps its shape and its
   cursor and margins stay inside, and so no step reaches outside an array. -/
set_option autoImplicit false

namespace Vacps.Terminal

open Library.JsArray

structure Shaped (rows columns : Int) (lines : List Line) : Prop where
  height : (lines.length : Int) = rows
  width : ∀ line ∈ lines, (line.length : Int) = columns

structure Framed (rows columns : Int) (lines : List Line) (row column top bottom : Int) : Prop where
  grid : Shaped rows columns lines
  row : 0 ≤ row ∧ row < rows
  column : 0 ≤ column ∧ column < columns
  region : 0 ≤ top ∧ top ≤ bottom ∧ bottom < rows

namespace TerminalScreen

structure Fits (screen : TerminalScreen) : Prop where
  columns : 2 ≤ screen.columnsValue
  rows : 1 ≤ screen.rowsValue
  active : Framed screen.rowsValue screen.columnsValue screen.lines screen.cursorRow screen.cursorColumn
    screen.scrollTop screen.scrollBottom
  saved : ∀ primary ∈ screen.primary, Framed screen.rowsValue screen.columnsValue primary.lines primary.cursorRow
    primary.cursorColumn primary.scrollTop primary.scrollBottom

-- The step reaches outside no array and leaves a screen that fits.
def Safe (result : Option TerminalScreen) : Prop := ∃ screen, result = some screen ∧ screen.Fits

theorem safe_some (screen : TerminalScreen) (fits : screen.Fits) : Safe (some screen) := ⟨screen, rfl, fits⟩

theorem safe_fits (result : Option TerminalScreen) (screen : TerminalScreen) (safe : Safe result) (found : result = some screen) :
    screen.Fits := by
  obtain ⟨other, made, fits⟩ := safe
  rw [found] at made
  rw [Option.some.inj made]
  exact fits

theorem safe_bind (result : Option TerminalScreen) (next : TerminalScreen → Option TerminalScreen) (safe : Safe result)
    (later : ∀ screen : TerminalScreen, screen.Fits → Safe (next screen)) : Safe (result >>= next) := by
  obtain ⟨screen, rfl, fits⟩ := safe
  exact later screen fits

theorem safe_map (result : Option TerminalScreen) (change : TerminalScreen → TerminalScreen) (safe : Safe result)
    (kept : ∀ screen : TerminalScreen, screen.Fits → (change screen).Fits) : Safe (result.map change) := by
  obtain ⟨screen, rfl, fits⟩ := safe
  exact ⟨change screen, rfl, kept screen fits⟩

theorem safe_fold {α : Type} (items : List α) (step : TerminalScreen → α → Option TerminalScreen)
    (each : ∀ item ∈ items, ∀ screen : TerminalScreen, screen.Fits → Safe (step screen item)) (start : TerminalScreen)
    (fits : start.Fits) : Safe (items.foldlM step start) := by
  induction items generalizing start with
  | nil => exact safe_some start fits
  | cons first rest ih =>
      rw [List.foldlM_cons]
      apply safe_bind
      · exact each first List.mem_cons_self start fits
      · exact ih fun item member => each item (List.mem_cons_of_mem _ member)

end TerminalScreen

theorem clamp_bounds (value minimum maximum : Int) (order : minimum ≤ maximum) :
    minimum ≤ clamp value minimum maximum ∧ clamp value minimum maximum ≤ maximum := by
  unfold clamp
  omega

theorem make_grid (rows columns : Int) (positive : 0 ≤ rows) (wide : 0 ≤ columns) :
    ∃ lines, makeGrid rows columns = some lines ∧ Shaped rows columns lines := by
  unfold makeGrid
  by_cases empty : rows ≤ 0
  · refine ⟨[], if_pos empty, ?_, ?_⟩
    · simp only [List.length_nil]
      omega
    · simp
  · refine ⟨List.replicate rows.toNat (List.replicate columns.toNat space), ?_, ?_, ?_⟩
    · rw [if_neg empty, new_array columns space wide]
      rfl
    · rw [List.length_replicate]
      omega
    · intro line member
      rw [List.eq_of_mem_replicate member, List.length_replicate]
      omega

theorem splice_shaped (rows columns start deleteCount : Int) (lines inserted : List Line) (added : Int)
    (shaped : Shaped rows columns lines) (new : Shaped added columns inserted) (low : 0 ≤ start) (positive : 0 ≤ deleteCount)
    (high : start + deleteCount ≤ rows) :
    Shaped (rows - deleteCount + added) columns (splice lines start deleteCount inserted) := by
  constructor
  · rw [splice_length lines inserted start deleteCount low positive (by rw [shaped.height]; exact high), shaped.height,
      new.height]
  · intro line member
    rcases mem_splice lines inserted start deleteCount line member with before | fresh
    · exact shaped.width line before
    · exact new.width line fresh

theorem no_lines (columns : Int) : Shaped 0 columns [] := ⟨rfl, by simp⟩

namespace TerminalScreen

theorem edited_fits (screen : TerminalScreen) (lines : List Line) (fits : screen.Fits)
    (shaped : Shaped screen.rowsValue screen.columnsValue lines) : Fits { screen with lines := lines } :=
  ⟨fits.columns, fits.rows, ⟨shaped, fits.active.row, fits.active.column, fits.active.region⟩, fits.saved⟩

theorem dirty_fits (screen : TerminalScreen) (fits : screen.Fits) : screen.markDirty.Fits :=
  ⟨fits.columns, fits.rows, fits.active, fits.saved⟩

-- An edit that keeps the width of a line succeeds on every line of the screen.
def Keeps (columns : Int) (edit : Line → Option Line) : Prop :=
  ∀ line : Line, (line.length : Int) = columns → ∃ edited, edit line = some edited ∧ (edited.length : Int) = columns

theorem edit_line (screen : TerminalScreen) (row : Int) (edit : Line → Option Line) (fits : screen.Fits)
    (inside : 0 ≤ row ∧ row < screen.rowsValue) (keeps : Keeps screen.columnsValue edit) :
    ∃ lines, screen.editLine row edit = some { screen with lines := lines } ∧ Fits { screen with lines := lines } := by
  have grid := fits.active.grid
  obtain ⟨line, read, member⟩ := at_inside screen.lines row inside.1 (by rw [grid.height]; exact inside.2)
  obtain ⟨edited, result, width⟩ := keeps line (grid.width line member)
  have written := set_inside screen.lines row edited inside.1 (by rw [grid.height]; exact inside.2)
  refine ⟨screen.lines.set row.toNat edited, ?_, screen.edited_fits _ fits ⟨?_, ?_⟩⟩
  · simp only [editLine, read, result, written, bind, Option.bind]
  · rw [List.length_set]
    exact grid.height
  · intro other inLines
    rcases List.mem_or_eq_of_mem_set inLines with before | new
    · exact grid.width other before
    · rw [new]
      exact width

theorem edit_line_safe (screen : TerminalScreen) (row : Int) (edit : Line → Option Line) (fits : screen.Fits)
    (inside : 0 ≤ row ∧ row < screen.rowsValue) (keeps : Keeps screen.columnsValue edit) :
    Safe (screen.editLine row edit) := by
  obtain ⟨lines, result, after⟩ := screen.edit_line row edit fits inside keeps
  exact ⟨_, result, after⟩

theorem keeps_fill (columns : Int) (start stop : Line → Int) :
    Keeps columns fun line => some (fill line space (start line) (stop line)) := by
  intro line width
  exact ⟨_, rfl, by rw [fill_length]; exact width⟩

theorem keeps_set (columns column : Int) (cell : Cell) (inside : 0 ≤ column ∧ column < columns) :
    Keeps columns fun line => setAt line column cell := by
  intro line width
  refine ⟨_, set_inside line column cell inside.1 (by rw [width]; exact inside.2), ?_⟩
  rw [List.length_set]
  exact width

theorem keeps_bind (columns : Int) (first second : Line → Option Line) (keepsFirst : Keeps columns first)
    (keepsSecond : Keeps columns second) : Keeps columns fun line => first line >>= second := by
  intro line width
  obtain ⟨middle, done, same⟩ := keepsFirst line width
  obtain ⟨last, doneToo, sameToo⟩ := keepsSecond middle same
  exact ⟨last, by simp only [done, bind, Option.bind, doneToo], sameToo⟩

theorem keeps_clear_before (columns column : Int) (inside : 0 ≤ column ∧ column < columns) :
    Keeps columns (clearBefore column) := by
  intro line width
  obtain ⟨cell, read, -⟩ := at_inside line column inside.1 (by rw [width]; exact inside.2)
  simp only [clearBefore, read, bind, Option.bind]
  by_cases wide : cell = [] ∧ 0 < column
  · rw [if_pos wide]
    exact keeps_set columns (column - 1) space ⟨by omega, by omega⟩ line width
  · rw [if_neg wide]
    exact ⟨line, rfl, width⟩

theorem keeps_clear_after (columns column : Int) (inside : 0 ≤ column ∧ column < columns) :
    Keeps columns (clearAfter columns column) := by
  intro line width
  obtain ⟨cell, read, -⟩ := at_inside line column inside.1 (by rw [width]; exact inside.2)
  simp only [clearAfter, read, bind, Option.bind]
  by_cases within : cell ≠ [] ∧ column + 1 < columns
  · obtain ⟨next, readNext, -⟩ := at_inside line (column + 1) (by omega) (by rw [width]; exact within.2)
    rw [if_pos within]
    simp only [readNext]
    by_cases trailing : next = []
    · rw [if_pos trailing]
      exact keeps_set columns (column + 1) space ⟨by omega, within.2⟩ line width
    · rw [if_neg trailing]
      exact ⟨line, rfl, width⟩
  · rw [if_neg within]
    exact ⟨line, rfl, width⟩

theorem keeps_clear (columns column : Int) (inside : 0 ≤ column ∧ column < columns) :
    Keeps columns (clearLineCell columns column) :=
  keeps_bind columns _ _ (keeps_clear_before columns column inside)
    (keeps_bind columns _ _ (keeps_clear_after columns column inside) (keeps_set columns column space inside))

theorem keeps_insert (columns column amount : Int) (low : 0 ≤ column) (positive : 0 ≤ amount)
    (high : column + amount ≤ columns) : Keeps columns (insertBlanks columns column amount) := by
  intro line width
  have blank := new_array amount space positive
  have size := splice_length line (List.replicate amount.toNat space) column 0 low (le_refl _) (by omega)
  rw [List.length_replicate] at size
  simp only [insertBlanks, blank, bind, Option.bind]
  refine ⟨_, if_pos ⟨by omega, by omega⟩, ?_⟩
  rw [List.length_take]
  omega

theorem keeps_delete (columns column amount : Int) (low : 0 ≤ column) (positive : 0 ≤ amount)
    (high : column + amount ≤ columns) : Keeps columns (deleteCells column amount) := by
  intro line width
  have blank := new_array amount space positive
  have size := splice_length line [] column amount low positive (by omega)
  simp only [deleteCells, blank, bind, Option.bind]
  refine ⟨_, rfl, ?_⟩
  rw [List.length_append, List.length_replicate]
  simp only [List.length_nil] at size
  omega

-- Everything that only places the cursor and sets flags.
theorem placed_fits (screen moved : TerminalScreen) (fits : screen.Fits) (columns : moved.columnsValue = screen.columnsValue)
    (rows : moved.rowsValue = screen.rowsValue) (lines : moved.lines = screen.lines) (primary : moved.primary = screen.primary)
    (top : moved.scrollTop = screen.scrollTop) (bottom : moved.scrollBottom = screen.scrollBottom)
    (row : 0 ≤ moved.cursorRow ∧ moved.cursorRow < screen.rowsValue)
    (column : 0 ≤ moved.cursorColumn ∧ moved.cursorColumn < screen.columnsValue) : moved.Fits := by
  refine ⟨by rw [columns]; exact fits.columns, by rw [rows]; exact fits.rows, ?_, ?_⟩
  · rw [columns, rows, lines, top, bottom]
    exact ⟨fits.active.grid, row, column, fits.active.region⟩
  · rw [columns, rows, primary]
    exact fits.saved

theorem clamp_row (screen : TerminalScreen) (row : Int) (fits : screen.Fits) :
    0 ≤ screen.clampRow row ∧ screen.clampRow row < screen.rowsValue := by
  have region := fits.active.region
  have rows := fits.rows
  by_cases origin : screen.originMode = true
  · have bounds := clamp_bounds row screen.scrollTop screen.scrollBottom region.2.1
    simp only [clampRow, if_pos origin]
    omega
  · have bounds := clamp_bounds row 0 (screen.rowsValue - 1) (by omega)
    simp only [clampRow, if_neg origin]
    omega

theorem move_fits (screen : TerminalScreen) (row column : Int) (fits : screen.Fits) : (screen.moveCursor row column).Fits := by
  have columns := fits.columns
  have nextColumn := clamp_bounds column 0 (screen.columnsValue - 1) (by omega)
  by_cases moved : screen.clampRow row ≠ screen.cursorRow ∨ clamp column 0 (screen.columnsValue - 1) ≠ screen.cursorColumn
  · have result : screen.moveCursor row column = { screen with
        wrapPending := false
        cursorRow := screen.clampRow row
        cursorColumn := clamp column 0 (screen.columnsValue - 1)
        dirty := true } := if_pos moved
    rw [result]
    exact screen.placed_fits _ fits rfl rfl rfl rfl rfl rfl (screen.clamp_row row fits) ⟨nextColumn.1, by dsimp only; omega⟩
  · have result : screen.moveCursor row column = { screen with wrapPending := false } := if_neg moved
    rw [result]
    exact screen.placed_fits _ fits rfl rfl rfl rfl rfl rfl fits.active.row fits.active.column

theorem address_fits (screen : TerminalScreen) (row column : Int) (fits : screen.Fits) :
    (screen.moveCursorAddress row column).Fits := screen.move_fits _ column fits

-- A fresh grid in place of some lines of the region.
theorem replaced_fits (screen : TerminalScreen) (fits : screen.Fits) (amount : Int) (positive : 0 ≤ amount)
    (lines : List Line → List Line)
    (shaped : ∀ blank, Shaped amount screen.columnsValue blank →
      Shaped screen.rowsValue screen.columnsValue (lines blank)) :
    Safe ((makeGrid amount screen.columnsValue).map fun blank => { screen with lines := lines blank, dirty := true }) := by
  have columns := fits.columns
  obtain ⟨blank, made, grid⟩ := make_grid amount screen.columnsValue positive (by omega)
  rw [made]
  exact ⟨_, rfl, fits.columns, fits.rows, ⟨shaped blank grid, fits.active.row, fits.active.column, fits.active.region⟩,
    fits.saved⟩

theorem scroll_up_safe (screen : TerminalScreen) (count : Int) (fits : screen.Fits) (positive : 1 ≤ count) :
    Safe (screen.scrollUp count) := by
  have region := fits.active.region
  apply screen.replaced_fits fits
  · omega
  · intro blank grid
    have removed := splice_shaped screen.rowsValue screen.columnsValue screen.scrollTop
      (min count (screen.scrollBottom - screen.scrollTop + 1)) screen.lines [] 0 fits.active.grid (no_lines _) region.1
      (by omega) (by omega)
    have filled := splice_shaped _ screen.columnsValue
      (screen.scrollBottom - min count (screen.scrollBottom - screen.scrollTop + 1) + 1) 0 _ blank _ removed grid (by omega)
      (le_refl _) (by omega)
    exact ⟨by rw [filled.height]; omega, filled.width⟩

theorem scroll_down_safe (screen : TerminalScreen) (count : Int) (fits : screen.Fits) (positive : 1 ≤ count) :
    Safe (screen.scrollDown count) := by
  have region := fits.active.region
  apply screen.replaced_fits fits
  · omega
  · intro blank grid
    have removed := splice_shaped screen.rowsValue screen.columnsValue
      (screen.scrollBottom - min count (screen.scrollBottom - screen.scrollTop + 1) + 1)
      (min count (screen.scrollBottom - screen.scrollTop + 1)) screen.lines [] 0 fits.active.grid (no_lines _) (by omega)
      (by omega) (by omega)
    have filled := splice_shaped _ screen.columnsValue screen.scrollTop 0 _ blank _ removed grid region.1 (le_refl _)
      (by omega)
    exact ⟨by rw [filled.height]; omega, filled.width⟩

theorem insert_lines_safe (screen : TerminalScreen) (count : Int) (fits : screen.Fits) (positive : 1 ≤ count) :
    Safe (screen.insertLines count) := by
  have region := fits.active.region
  have row := fits.active.row
  unfold insertLines
  split
  · exact safe_some screen fits
  · rename_i within
    apply screen.replaced_fits fits
    · omega
    · intro blank grid
      have pushed := splice_shaped screen.rowsValue screen.columnsValue screen.cursorRow 0 screen.lines blank _
        fits.active.grid grid row.1 (le_refl _) (by omega)
      have cut := splice_shaped _ screen.columnsValue (screen.scrollBottom + 1)
        (min count (screen.scrollBottom - screen.cursorRow + 1)) _ [] 0 pushed (no_lines _) (by omega) (by omega) (by omega)
      exact ⟨by rw [cut.height]; omega, cut.width⟩

theorem delete_lines_safe (screen : TerminalScreen) (count : Int) (fits : screen.Fits) (positive : 1 ≤ count) :
    Safe (screen.deleteLines count) := by
  have region := fits.active.region
  have row := fits.active.row
  unfold deleteLines
  split
  · exact safe_some screen fits
  · rename_i within
    apply screen.replaced_fits fits
    · omega
    · intro blank grid
      have removed := splice_shaped screen.rowsValue screen.columnsValue screen.cursorRow
        (min count (screen.scrollBottom - screen.cursorRow + 1)) screen.lines [] 0 fits.active.grid (no_lines _) row.1
        (by omega) (by omega)
      have filled := splice_shaped _ screen.columnsValue
        (screen.scrollBottom - min count (screen.scrollBottom - screen.cursorRow + 1) + 1) 0 _ blank _ removed grid
        (by omega) (le_refl _) (by omega)
      exact ⟨by rw [filled.height]; omega, filled.width⟩

theorem line_feed_safe (screen : TerminalScreen) (fits : screen.Fits) : Safe screen.lineFeed := by
  unfold lineFeed
  split
  · exact screen.scroll_up_safe 1 fits (le_refl _)
  · exact safe_some _ (screen.move_fits _ _ fits)

theorem reverse_index_safe (screen : TerminalScreen) (fits : screen.Fits) : Safe screen.reverseIndex := by
  unfold reverseIndex
  split
  · exact screen.scroll_down_safe 1 fits (le_refl _)
  · exact safe_some _ (screen.move_fits _ _ fits)

theorem fill_rows (screen : TerminalScreen) (first : Int) (n : Nat) (fits : screen.Fits) (low : 0 ≤ first)
    (high : first + n ≤ screen.rowsValue) :
    ∃ lines, screen.fillRows first n = some { screen with lines := lines } ∧ Fits { screen with lines := lines } := by
  induction n generalizing screen first with
  | zero => exact ⟨screen.lines, rfl, fits⟩
  | succ n ih =>
      obtain ⟨lines, filled, after⟩ := screen.edit_line first _ fits ⟨low, by omega⟩
        (keeps_fill screen.columnsValue (fun _ => 0) fun line => line.length)
      obtain ⟨last, rest, fitsLast⟩ := ih { screen with lines := lines } (first + 1) after (by omega)
        (by dsimp only; omega)
      refine ⟨last, ?_, fitsLast⟩
      rw [fillRows, filled]
      exact rest

theorem erase_display_safe (screen : TerminalScreen) (mode : Int) (fits : screen.Fits) : Safe (screen.eraseDisplay mode) := by
  have row := fits.active.row
  have rows := fits.rows
  unfold eraseDisplay
  split
  · obtain ⟨blank, made, grid⟩ := make_grid screen.rowsValue screen.columnsValue (by omega) (by have := fits.columns; omega)
    rw [made]
    exact safe_some _ (dirty_fits _ (screen.edited_fits blank fits grid))
  · split
    · obtain ⟨lines, above, fitsAbove⟩ := screen.fill_rows 0 screen.cursorRow.toNat fits (le_refl _) (by omega)
      rw [above]
      apply safe_bind _ _ (edit_line_safe _ screen.cursorRow _ fitsAbove row (keeps_fill _ _ _))
      exact fun erased fitsErased => safe_some _ (dirty_fits erased fitsErased)
    · obtain ⟨lines, here, fitsHere⟩ := screen.edit_line screen.cursorRow _ fits row
        (keeps_fill screen.columnsValue (fun _ => screen.cursorColumn) fun line => line.length)
      rw [here]
      obtain ⟨last, below, fitsBelow⟩ := fill_rows { screen with lines := lines } (screen.cursorRow + 1)
        (screen.rowsValue - (screen.cursorRow + 1)).toNat fitsHere (by omega) (by dsimp only; omega)
      exact ⟨_, by simp only [bind, Option.bind, below], dirty_fits _ fitsBelow⟩

theorem edit_here_safe (screen : TerminalScreen) (edit : Line → Option Line) (fits : screen.Fits)
    (keeps : Keeps screen.columnsValue edit) : Safe ((screen.editLine screen.cursorRow edit).map markDirty) :=
  safe_map _ markDirty (screen.edit_line_safe screen.cursorRow edit fits fits.active.row keeps) dirty_fits

theorem erase_line_safe (screen : TerminalScreen) (mode : Int) (fits : screen.Fits) : Safe (screen.eraseLine mode) := by
  apply screen.edit_here_safe _ fits
  intro line width
  refine ⟨_, rfl, ?_⟩
  split
  · rw [fill_length]; exact width
  · split
    · rw [fill_length]; exact width
    · rw [fill_length]; exact width

theorem insert_characters_safe (screen : TerminalScreen) (count : Int) (fits : screen.Fits) (positive : 0 ≤ count) :
    Safe (screen.insertCharacters count) := by
  have column := fits.active.column
  exact screen.edit_here_safe _ fits
    (keeps_insert screen.columnsValue screen.cursorColumn _ column.1 (by omega) (by omega))

theorem delete_characters_safe (screen : TerminalScreen) (count : Int) (fits : screen.Fits) (positive : 0 ≤ count) :
    Safe (screen.deleteCharacters count) := by
  have column := fits.active.column
  exact screen.edit_here_safe _ fits
    (keeps_delete screen.columnsValue screen.cursorColumn _ column.1 (by omega) (by omega))

theorem erase_characters_safe (screen : TerminalScreen) (count : Int) (fits : screen.Fits) :
    Safe (screen.eraseCharacters count) :=
  screen.edit_here_safe _ fits (keeps_fill screen.columnsValue (fun _ => screen.cursorColumn) _)

theorem column_fits (screen : TerminalScreen) (column : Int) (fits : screen.Fits)
    (inside : 0 ≤ column ∧ column < screen.columnsValue) : Fits { screen with cursorColumn := column } :=
  screen.placed_fits _ fits rfl rfl rfl rfl rfl rfl fits.active.row inside

theorem clear_cell (screen : TerminalScreen) (row column : Int) (fits : screen.Fits)
    (row_inside : 0 ≤ row ∧ row < screen.rowsValue) (column_inside : 0 ≤ column ∧ column < screen.columnsValue) :
    ∃ lines, screen.clearCell row column = some { screen with lines := lines } ∧ Fits { screen with lines := lines } :=
  screen.edit_line row _ fits row_inside (keeps_clear screen.columnsValue column column_inside)

theorem set_cell_safe (screen : TerminalScreen) (row column : Int) (cell : Cell) (fits : screen.Fits)
    (row_inside : 0 ≤ row ∧ row < screen.rowsValue) (column_inside : 0 ≤ column ∧ column < screen.columnsValue) :
    Safe (screen.setCell row column cell) :=
  screen.edit_line_safe row _ fits row_inside (keeps_set screen.columnsValue column cell column_inside)

theorem combine_safe (screen : TerminalScreen) (character : Nat) (fits : screen.Fits) : Safe (screen.combine character) := by
  have grid := fits.active.grid
  have row := fits.active.row
  have column := fits.active.column
  obtain ⟨line, readLine, member⟩ := at_inside screen.lines screen.cursorRow row.1 (by rw [grid.height]; exact row.2)
  have width := grid.width line member
  obtain ⟨current, readCurrent, -⟩ := at_inside line screen.cursorColumn column.1 (by rw [width]; exact column.2)
  have target : ∀ column', column' = (if screen.wrapPending ∧ current ≠ [] then screen.cursorColumn
      else max 0 (screen.cursorColumn - 1)) → 0 ≤ column' ∧ column' < screen.columnsValue := by
    intro column' same
    rw [same]
    split <;> omega
  have inside := target _ rfl
  obtain ⟨cell, readCell, -⟩ := at_inside line _ inside.1 (by rw [width]; exact inside.2)
  simp only [combine, readLine, readCurrent, readCell, bind, Option.bind]
  split
  · exact safe_map _ markDirty (screen.set_cell_safe _ _ _ fits row inside) dirty_fits
  · exact safe_some screen fits

theorem carriage_line_feed_safe (screen : TerminalScreen) (fits : screen.Fits) : Safe screen.carriageLineFeed := by
  apply safe_map _ _ (screen.line_feed_safe fits)
  intro fed fitsFed
  have columns := fitsFed.columns
  exact fed.column_fits 0 fitsFed ⟨le_refl _, by omega⟩

theorem wrap_if_pending_safe (screen : TerminalScreen) (fits : screen.Fits) : Safe screen.wrapIfPending := by
  unfold wrapIfPending
  split
  · apply safe_map
    · split
      · exact screen.carriage_line_feed_safe fits
      · exact safe_some screen fits
    · exact fun wrapped fitsWrapped => ⟨fitsWrapped.columns, fitsWrapped.rows, fitsWrapped.active, fitsWrapped.saved⟩
  · exact safe_some screen fits

theorem wrap_if_wide_safe (screen : TerminalScreen) (width : Int) (fits : screen.Fits) : Safe (screen.wrapIfWide width) := by
  have columns := fits.columns
  unfold wrapIfWide
  split
  · split
    · exact safe_some _ (screen.column_fits _ fits ⟨by omega, by omega⟩)
    · exact screen.carriage_line_feed_safe fits
  · exact safe_some screen fits

theorem insert_if_mode_safe (screen : TerminalScreen) (width : Int) (fits : screen.Fits) (positive : 0 ≤ width) :
    Safe (screen.insertIfMode width) := by
  unfold insertIfMode
  split
  · exact screen.insert_characters_safe width fits positive
  · exact safe_some screen fits

theorem clear_trailing_safe (screen : TerminalScreen) (width : Int) (fits : screen.Fits) :
    Safe (screen.clearTrailing width) := by
  have column := fits.active.column
  unfold clearTrailing
  split
  · rename_i trailing
    obtain ⟨lines, cleared, fitsCleared⟩ := screen.clear_cell screen.cursorRow (screen.cursorColumn + 1) fits
      fits.active.row ⟨by omega, trailing.2⟩
    rw [cleared]
    exact set_cell_safe _ screen.cursorRow (screen.cursorColumn + 1) [] fitsCleared fits.active.row ⟨by omega, trailing.2⟩
  · exact safe_some screen fits

theorem advance_fits (screen : TerminalScreen) (width : Int) (fits : screen.Fits) (positive : 0 ≤ width) :
    (screen.advance width).Fits := by
  have columns := fits.columns
  have column := fits.active.column
  unfold advance
  dsimp only
  split
  · exact screen.placed_fits _ fits rfl rfl rfl rfl rfl rfl fits.active.row ⟨by dsimp only; omega, by dsimp only; omega⟩
  · exact screen.placed_fits _ fits rfl rfl rfl rfl rfl rfl fits.active.row ⟨by dsimp only; omega, by dsimp only; omega⟩

theorem width_positive (code : Nat) : 0 ≤ codePointWidth code := by
  unfold codePointWidth
  split
  · decide
  · split <;> decide

theorem write_character_safe (screen : TerminalScreen) (character : Nat) (fits : screen.Fits) :
    Safe (screen.writeCharacter character) := by
  have positive := width_positive character
  unfold writeCharacter
  dsimp only
  split
  · exact screen.combine_safe character fits
  · apply safe_bind _ _ (screen.wrap_if_pending_safe fits)
    intro wrapped fitsWrapped
    apply safe_bind _ _ (wrapped.wrap_if_wide_safe _ fitsWrapped)
    intro placed fitsPlaced
    apply safe_bind _ _ (placed.insert_if_mode_safe _ fitsPlaced positive)
    intro opened fitsOpened
    obtain ⟨lines, cleared, fitsCleared⟩ := opened.clear_cell opened.cursorRow opened.cursorColumn fitsOpened
      fitsOpened.active.row fitsOpened.active.column
    rw [cleared]
    apply safe_bind _ _ (set_cell_safe _ opened.cursorRow opened.cursorColumn [character] fitsCleared
      fitsOpened.active.row fitsOpened.active.column)
    intro written fitsWritten
    apply safe_bind _ _ (written.clear_trailing_safe _ fitsWritten)
    intro trailed fitsTrailed
    exact safe_some _ (trailed.advance_fits _ fitsTrailed positive)

-- A fresh grid with the cursor at home and the whole screen as its region.
theorem home_fits (screen fresh : TerminalScreen) (fits : screen.Fits) (columns : fresh.columnsValue = screen.columnsValue)
    (rows : fresh.rowsValue = screen.rowsValue) (grid : Shaped screen.rowsValue screen.columnsValue fresh.lines)
    (cursor : fresh.cursorRow = 0 ∧ fresh.cursorColumn = 0)
    (region : fresh.scrollTop = 0 ∧ fresh.scrollBottom = screen.rowsValue - 1)
    (saved : ∀ primary ∈ fresh.primary, Framed screen.rowsValue screen.columnsValue primary.lines primary.cursorRow
      primary.cursorColumn primary.scrollTop primary.scrollBottom) : fresh.Fits := by
  have wide := fits.columns
  have high := fits.rows
  refine ⟨by rw [columns]; exact wide, by rw [rows]; exact high, ⟨?_, ?_, ?_, ?_⟩, ?_⟩
  · rw [columns, rows]
    exact grid
  · rw [rows, cursor.1]
    omega
  · rw [columns, cursor.2]
    omega
  · rw [rows, region.1, region.2]
    omega
  · rw [columns, rows]
    exact saved

theorem own_grid (screen : TerminalScreen) (fits : screen.Fits) : ∃ lines,
    makeGrid screen.rowsValue screen.columnsValue = some lines ∧ Shaped screen.rowsValue screen.columnsValue lines := by
  have columns := fits.columns
  have rows := fits.rows
  exact make_grid _ _ (by omega) (by omega)

theorem reset_safe (screen : TerminalScreen) (fits : screen.Fits) : Safe screen.reset := by
  obtain ⟨lines, made, grid⟩ := screen.own_grid fits
  rw [reset, made]
  exact safe_some _ (screen.home_fits _ fits rfl rfl grid ⟨rfl, rfl⟩ ⟨rfl, rfl⟩ (by simp))

theorem lost_output_safe (screen : TerminalScreen) (fits : screen.Fits) : Safe screen.lostOutput := by
  obtain ⟨lines, made, grid⟩ := screen.own_grid fits
  rw [lostOutput, made]
  exact safe_some _ (screen.home_fits _ fits rfl rfl grid ⟨rfl, rfl⟩ ⟨rfl, rfl⟩ (by simp))

theorem enter_alternate_safe (screen : TerminalScreen) (fits : screen.Fits) : Safe screen.enterAlternateScreen := by
  obtain ⟨lines, made, grid⟩ := screen.own_grid fits
  cases saved : screen.primary with
  | some primary =>
      rw [enterAlternateScreen, saved]
      exact safe_some screen fits
  | none =>
      rw [enterAlternateScreen, saved, made]
      refine safe_some _ (screen.home_fits _ fits rfl rfl grid ⟨rfl, rfl⟩ ⟨rfl, rfl⟩ ?_)
      intro primary same
      rw [← Option.some.inj same]
      exact fits.active

theorem leave_alternate_fits (screen : TerminalScreen) (fits : screen.Fits) : screen.leaveAlternateScreen.Fits := by
  cases saved : screen.primary with
  | none =>
      rw [leaveAlternateScreen, saved]
      exact fits
  | some primary =>
      rw [leaveAlternateScreen, saved]
      exact ⟨fits.columns, fits.rows, fits.saved primary saved, by simp⟩

theorem set_private_mode_safe (screen : TerminalScreen) (enabled : Bool) (mode : Int) (fits : screen.Fits) :
    Safe (screen.setPrivateMode enabled mode) := by
  unfold setPrivateMode
  split
  · exact safe_some _ ⟨fits.columns, fits.rows, fits.active, fits.saved⟩
  · split
    · exact safe_some _ ⟨fits.columns, fits.rows, fits.active, fits.saved⟩
    · split
      · have set : Fits { screen with originMode := enabled } := ⟨fits.columns, fits.rows, fits.active, fits.saved⟩
        exact safe_some _ (move_fits _ _ _ set)
      · split
        · split
          · exact screen.enter_alternate_safe fits
          · exact safe_some _ (screen.leave_alternate_fits fits)
        · exact safe_some screen fits

theorem set_modes_fits (params : List Int) (enabled : Bool) (screen : TerminalScreen) (fits : screen.Fits) :
    (params.foldl (fun screen mode => screen.setMode enabled mode) screen).Fits := by
  induction params generalizing screen with
  | nil => exact fits
  | cons mode rest ih =>
      have set : (screen.setMode enabled mode).Fits := by
        unfold setMode
        split
        · exact ⟨fits.columns, fits.rows, fits.active, fits.saved⟩
        · exact fits
      exact ih (screen.setMode enabled mode) set

theorem set_scroll_region_fits (screen : TerminalScreen) (params : List Int) (fits : screen.Fits) :
    (screen.setScrollRegion params).Fits := by
  have rows := fits.rows
  have top := clamp_bounds (position params 0 1 - 1) 0 (screen.rowsValue - 1) (by omega)
  have bottom := clamp_bounds (position params 1 screen.rowsValue - 1) 0 (screen.rowsValue - 1) (by omega)
  unfold setScrollRegion
  dsimp only
  split
  · rename_i order
    apply move_fits
    exact ⟨fits.columns, fits.rows, ⟨fits.active.grid, fits.active.row, fits.active.column,
      top.1, Int.le_of_lt order, by dsimp only; omega⟩, fits.saved⟩
  · exact fits

theorem respond_fits (screen : TerminalScreen) (response : String) (fits : screen.Fits) : (screen.respond response).Fits :=
  ⟨fits.columns, fits.rows, fits.active, fits.saved⟩

theorem device_status_fits (screen : TerminalScreen) (privateMode : Bool) (request : Int) (fits : screen.Fits) :
    (screen.deviceStatusReport privateMode request).Fits := by
  unfold deviceStatusReport
  split
  · exact screen.respond_fits _ fits
  · split
    · exact fits
    · exact screen.respond_fits _ fits

theorem save_cursor_fits (screen : TerminalScreen) (fits : screen.Fits) : screen.saveCursor.Fits :=
  ⟨fits.columns, fits.rows, fits.active, fits.saved⟩

theorem restore_cursor_fits (screen : TerminalScreen) (fits : screen.Fits) : screen.restoreCursor.Fits :=
  screen.move_fits _ _ fits

theorem tab_stops_fits (screen : TerminalScreen) (tabStops : List Int) (fits : screen.Fits) :
    Fits { screen with tabStops := tabStops } := ⟨fits.columns, fits.rows, fits.active, fits.saved⟩

theorem parser_fits (screen : TerminalScreen) (control : List Nat) (intermediate : Option Nat) (state : ParserState)
    (fits : screen.Fits) :
    Fits { screen with control := control, escapeIntermediate := intermediate, parserState := state } :=
  ⟨fits.columns, fits.rows, fits.active, fits.saved⟩

-- Each final byte runs one of the operations above; a count is at least one.
theorem execute_csi_safe (screen : TerminalScreen) (final : Char) (raw : List Nat) (fits : screen.Fits) :
    Safe (screen.executeCsi final raw) := by
  have count : 1 ≤ countOf (paramsOf raw) := le_max_left _ _
  have move : ∀ row column, Safe (some (screen.moveCursor row column)) :=
    fun row column => safe_some _ (screen.move_fits row column fits)
  have modes : ∀ enabled : Bool, Safe (if startsWith raw '?' then
        (paramsOf raw).foldlM (fun screen mode => screen.setPrivateMode enabled mode) screen
      else some ((paramsOf raw).foldl (fun screen mode => screen.setMode enabled mode) screen)) := by
    intro enabled
    split
    · exact safe_fold _ _ (fun mode _ screen fits => screen.set_private_mode_safe enabled mode fits) screen fits
    · exact safe_some _ (set_modes_fits _ enabled screen fits)
  have report : Safe (some (if param (paramsOf raw) 0 = 18 then
      screen.respond s!"\x1b[8;{screen.rowsValue};{screen.columnsValue}t" else screen)) := by
    split
    · exact safe_some _ (screen.respond_fits _ fits)
    · exact safe_some screen fits
  unfold executeCsi
  dsimp only
  split
  case h_1 | h_2 | h_3 | h_4 | h_5 | h_6 | h_7 | h_8 | h_9 | h_10 => exact move _ _
  case h_11 | h_12 | h_13 => exact safe_some _ (screen.address_fits _ _ fits)
  case h_14 => exact screen.erase_display_safe _ fits
  case h_15 => exact screen.erase_line_safe _ fits
  case h_16 => exact screen.insert_lines_safe _ fits count
  case h_17 => exact screen.delete_lines_safe _ fits count
  case h_18 => exact screen.insert_characters_safe _ fits (by omega)
  case h_19 => exact screen.delete_characters_safe _ fits (by omega)
  case h_20 => exact screen.erase_characters_safe _ fits
  case h_21 => exact screen.scroll_up_safe _ fits count
  case h_22 => exact screen.scroll_down_safe _ fits count
  case h_23 => exact safe_some _ (screen.set_scroll_region_fits _ fits)
  case h_24 => exact safe_some _ (screen.save_cursor_fits fits)
  case h_25 => exact safe_some _ (screen.restore_cursor_fits fits)
  case h_26 | h_27 => exact modes _
  case h_28 => exact safe_some _ (screen.tab_stops_fits _ fits)
  case h_29 => exact safe_some _ (screen.device_status_fits _ _ fits)
  case h_30 => exact safe_some _ (screen.respond_fits _ fits)
  case h_31 => exact report
  case h_32 => exact safe_some screen fits

theorem consume_csi_safe (screen : TerminalScreen) (code : Nat) (fits : screen.Fits) : Safe (screen.consumeCsi code) := by
  unfold consumeCsi
  split
  · apply safe_map _ _ (screen.execute_csi_safe (Char.ofNat code) screen.control fits)
    exact fun executed fitsExecuted => executed.parser_fits [] executed.escapeIntermediate .ground fitsExecuted
  · split
    · exact safe_some _ (screen.parser_fits _ screen.escapeIntermediate screen.parserState fits)
    · exact safe_some screen fits

theorem consume_ground_safe (screen : TerminalScreen) (code : Nat) (fits : screen.Fits) :
    Safe (screen.consumeGround code) := by
  have move : ∀ row column, Safe (some (screen.moveCursor row column)) :=
    fun row column => safe_some _ (screen.move_fits row column fits)
  unfold consumeGround
  split
  · exact safe_some _ (screen.parser_fits screen.control screen.escapeIntermediate .escape fits)
  split
  · exact move _ _
  split
  · exact screen.line_feed_safe fits
  split
  · exact move _ _
  split
  · exact move _ _
  split
  · exact safe_some _ ⟨fits.columns, fits.rows, fits.active, fits.saved⟩
  split
  · exact safe_some _ ⟨fits.columns, fits.rows, fits.active, fits.saved⟩
  split
  · exact safe_some screen fits
  · exact screen.write_character_safe _ fits

theorem escaped_safe (screen : TerminalScreen) (code : Nat) (fits : screen.Fits) : Safe (screen.escaped code) := by
  unfold escaped
  split
  case h_1 => exact safe_some _ (screen.parser_fits [] screen.escapeIntermediate .csi fits)
  case h_2 | h_3 | h_4 | h_5 => exact safe_some _ (screen.parser_fits screen.control screen.escapeIntermediate .osc fits)
  case h_6 | h_7 | h_8 | h_9 | h_10 | h_11 | h_12 =>
    exact safe_some _ (screen.parser_fits screen.control (some code) .escapeIntermediate fits)
  case h_13 => exact safe_some _ (screen.tab_stops_fits _ fits)
  case h_14 => exact safe_some _ (screen.save_cursor_fits fits)
  case h_15 => exact safe_some _ (screen.restore_cursor_fits fits)
  case h_16 => exact screen.line_feed_safe fits
  case h_17 => exact safe_map _ _ (screen.line_feed_safe fits) fun fed fitsFed => fed.move_fits _ _ fitsFed
  case h_18 => exact screen.reverse_index_safe fits
  case h_19 => exact screen.reset_safe fits
  case h_20 => exact safe_some screen fits

theorem consume_safe (screen : TerminalScreen) (code : Nat) (fits : screen.Fits) : Safe (screen.consume code) := by
  have parser := fun state => screen.parser_fits screen.control screen.escapeIntermediate state fits
  cases state : screen.parserState with
  | ground =>
      rw [consume, state]
      exact screen.consume_ground_safe code fits
  | escape =>
      rw [consume, state]
      exact escaped_safe _ code (parser .ground)
  | escapeIntermediate =>
      rw [consume, state]
      exact safe_some _ ⟨fits.columns, fits.rows, fits.active, fits.saved⟩
  | csi =>
      rw [consume, state]
      exact screen.consume_csi_safe code fits
  | osc =>
      rw [consume, state]
      dsimp only
      split
      · exact safe_some _ (parser .ground)
      · split
        · exact safe_some _ (parser .oscEscape)
        · exact safe_some screen fits
  | oscEscape =>
      rw [consume, state]
      exact safe_some _ (parser _)

theorem feed_safe (screen : TerminalScreen) (text : List Nat) (fits : screen.Fits) : Safe (screen.feed text) := by
  apply safe_map
  · apply safe_fold
    · exact fun code _ screen fits => screen.consume_safe code fits
    · exact ⟨fits.columns, fits.rows, fits.active, fits.saved⟩
  · exact fun fed fitsFed => ⟨fitsFed.columns, fitsFed.rows, fitsFed.active, fitsFed.saved⟩

end TerminalScreen

theorem copy_line_width (columns : Int) (source : Line) (wide : 0 ≤ columns) :
    ((copyLine columns source).length : Int) = columns := by
  rw [copyLine, List.length_append, List.length_take, List.length_replicate]
  omega

theorem resize_grid (lines : List Line) (columns rows : Int) (wide : 0 ≤ columns) (high : 0 ≤ rows) :
    ∃ resized, resizeGrid lines columns rows = some resized ∧ Shaped rows columns resized := by
  obtain ⟨fresh, made, grid⟩ := make_grid rows columns high wide
  refine ⟨(lines.take rows.toNat).map (copyLine columns) ++ fresh.drop (min rows.toNat lines.length), ?_, ?_, ?_⟩
  · rw [resizeGrid, made]
    rfl
  · have height := grid.height
    rw [List.length_append, List.length_map, List.length_take, List.length_drop]
    omega
  · intro line member
    rcases List.mem_append.mp member with copied | blank
    · obtain ⟨source, -, rfl⟩ := List.mem_map.mp copied
      exact copy_line_width columns source wide
    · exact grid.width line (List.mem_of_mem_drop blank)

namespace TerminalScreen

theorem resize_primary (primary : Option SavedPrimary) (columns rows : Int) (wide : 2 ≤ columns) (high : 1 ≤ rows) :
    ∃ resized, resizePrimary primary columns rows = some resized ∧ ∀ saved ∈ resized,
      Framed rows columns saved.lines saved.cursorRow saved.cursorColumn saved.scrollTop saved.scrollBottom := by
  cases primary with
  | none => exact ⟨none, rfl, by simp⟩
  | some saved =>
      obtain ⟨lines, copied, grid⟩ := resize_grid saved.lines columns rows (by omega) (by omega)
      have row := clamp_bounds saved.cursorRow 0 (rows - 1) (by omega)
      have column := clamp_bounds saved.cursorColumn 0 (columns - 1) (by omega)
      refine ⟨_, by rw [resizePrimary, copied]; rfl, ?_⟩
      intro resized same
      rw [← Option.some.inj same]
      exact ⟨grid, ⟨row.1, by dsimp only; omega⟩, ⟨column.1, by dsimp only; omega⟩, by dsimp only; omega⟩

theorem resize_safe (screen : TerminalScreen) (columns rows : Int) (fits : screen.Fits) (wide : 2 ≤ columns)
    (high : 1 ≤ rows) : Safe (screen.resize columns rows) := by
  obtain ⟨lines, copied, grid⟩ := resize_grid screen.lines columns rows (by omega) (by omega)
  obtain ⟨primary, resized, framed⟩ := resize_primary screen.primary columns rows wide high
  have row := clamp_bounds screen.cursorRow 0 (rows - 1) (by omega)
  have column := clamp_bounds screen.cursorColumn 0 (columns - 1) (by omega)
  unfold resize
  split
  · exact safe_some screen fits
  · rw [copied, resized]
    exact safe_some _ ⟨wide, high, ⟨grid, ⟨row.1, by dsimp only; omega⟩, ⟨column.1, by dsimp only; omega⟩,
      by dsimp only; omega⟩, framed⟩

theorem create_safe (columns rows : Int) (wide : 2 ≤ columns) (high : 1 ≤ rows) : Safe (create columns rows) := by
  obtain ⟨lines, made, grid⟩ := make_grid rows columns (by omega) (by omega)
  rw [create, made]
  exact safe_some _ ⟨wide, high, ⟨grid, ⟨le_refl _, by dsimp only; omega⟩, ⟨le_refl _, by dsimp only; omega⟩,
    by dsimp only; omega⟩, by simp⟩

end TerminalScreen

-- The sizes a terminal session is given.
def ScreenCall.Sized : ScreenCall → Prop
  | .resize columns rows => 2 ≤ columns ∧ 1 ≤ rows
  | .feed _ | .lostOutput => True

theorem perform_safe (screen : TerminalScreen) (call : ScreenCall) (fits : screen.Fits) (sized : call.Sized) :
    TerminalScreen.Safe (screen.perform call) := by
  cases call with
  | feed text => exact screen.feed_safe text fits
  | resize columns rows => exact screen.resize_safe columns rows fits sized.1 sized.2
  | lostOutput => exact screen.lost_output_safe fits

theorem screen_keeps_shape (columns rows : Int) (wide : 2 ≤ columns) (high : 1 ≤ rows) (calls : List ScreenCall)
    (sized : ∀ call ∈ calls, call.Sized) :
    ∃ screen, (TerminalScreen.create columns rows >>= fun fresh => calls.foldlM TerminalScreen.perform fresh) = some screen ∧
      screen.Fits := by
  apply TerminalScreen.safe_bind _ _ (TerminalScreen.create_safe columns rows wide high)
  intro fresh fits
  exact TerminalScreen.safe_fold calls _ (fun call member screen fits => perform_safe screen call fits (sized call member))
    fresh fits

-- A wide character at the margin of a narrow screen, the alternate screen, margins and a smaller size.
theorem screen_keeps_shape_narrow :
    ∃ screen, (TerminalScreen.create 2 1 >>= fun fresh =>
      ([.feed [0x61, 0x4e00, 0x1b, 0x5b, 0x3f, 0x34, 0x37, 0x68], .resize 3 4, .lostOutput] : List ScreenCall).foldlM
        TerminalScreen.perform fresh) = some screen ∧ screen.Fits := by
  refine screen_keeps_shape 2 1 (by decide) (by decide) _ ?_
  intro call member
  simp only [List.mem_cons, List.not_mem_nil, or_false] at member
  rcases member with rfl | rfl | rfl
  · trivial
  · exact ⟨by decide, by decide⟩
  · trivial

end Vacps.Terminal
