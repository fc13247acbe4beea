import Vacps.Agent.AlternateScreen

/- TerminalSessions.resize of runtime/terminal-sessions.ts: the screen is resized before the terminal, and back when that
   fails. -/
set_option autoImplicit false

namespace Vacps.Terminal

open Library.JsArray

-- The screen model, and the size the native terminal has.
structure ScreenSession where
  screen : TerminalScreen
  columns : Int
  rows : Int

-- native is how the terminal's own resize ends.
def ScreenSession.resize (session : ScreenSession) (columns rows : Int) (native : Except String Unit) :
    Option (Except String Unit × ScreenSession) := do
  let resized ← session.screen.resize columns rows
  match native with
  | .ok _ => some (.ok (), ⟨resized, columns, rows⟩)
  | .error error =>
      let back ← resized.resize session.columns session.rows
      some (.error error, { session with screen := back })

section grids

def cellAt (lines : List Line) (row column : Nat) : Option Cell := lines[row]?.bind fun cells => cells[column]?

-- Nothing is shown outside the first so many rows and columns.
def Vacant (lines : List Line) (columns rows : Int) : Prop :=
  ∀ (row column : Nat) (cell : Cell), cellAt lines row column = some cell → rows ≤ row ∨ columns ≤ column → cell = space

theorem copied_cell (columns : Int) (source : Line) (column : Nat) :
    (copyLine columns source)[column]? = if column < columns.toNat then some (source[column]?.getD space) else none := by
  rw [copyLine, List.getElem?_append, List.length_take]
  by_cases inside : column < min columns.toNat source.length
  · have within : column < source.length := by omega
    rw [if_pos inside, if_pos (by omega), List.getElem?_take_of_lt (by omega), List.getElem?_eq_getElem within, Option.getD_some]
  · rw [if_neg inside, List.getElem?_replicate]
    by_cases wide : column < columns.toNat
    · have behind : source[column]? = none := List.getElem?_eq_none (by omega)
      rw [if_pos wide, behind, if_pos (by omega), Option.getD_none]
    · rw [if_neg wide, if_neg (by omega)]

theorem fresh_grid (rows columns : Int) (fresh : List Line) (wide : 0 ≤ columns) (made : makeGrid rows columns = some fresh) :
    fresh = List.replicate rows.toNat (List.replicate columns.toNat space) := by
  unfold makeGrid at made
  split at made
  · rename_i empty
    rw [← Option.some.inj made, Int.toNat_eq_zero.mpr empty]
    rfl
  · rw [new_array columns space wide] at made
    exact (Option.some.inj made).symm

theorem resized_cell (lines resized : List Line) (columns rows : Int) (wide : 0 ≤ columns)
    (result : resizeGrid lines columns rows = some resized) (row column : Nat) :
    cellAt resized row column =
      if row < rows.toNat ∧ column < columns.toNat then some ((cellAt lines row column).getD space) else none := by
  obtain ⟨fresh, made, rfl⟩ := Option.map_eq_some_iff.mp result
  rw [fresh_grid rows columns fresh wide made, cellAt, cellAt, List.getElem?_append, List.length_map, List.length_take]
  by_cases kept : row < min rows.toNat lines.length
  · have within : row < lines.length := by omega
    rw [if_pos kept, List.getElem?_map, List.getElem?_take_of_lt (by omega), List.getElem?_eq_getElem within, Option.map_some,
      Option.bind_some, Option.bind_some, copied_cell]
    simp only [show row < rows.toNat by omega, true_and]
  · rw [if_neg kept, List.drop_replicate, List.getElem?_replicate]
    by_cases high : row < rows.toNat
    · have behind : lines[row]? = none := List.getElem?_eq_none (by omega)
      rw [if_pos (by omega), behind, Option.bind_some, List.getElem?_replicate]
      simp [high]
    · rw [if_neg (by omega), if_neg fun both => high both.1]
      rfl

theorem shaped_cell (rows columns : Int) (lines : List Line) (shaped : Shaped rows columns lines) (row column : Nat) :
    (cellAt lines row column).isSome ↔ row < rows.toNat ∧ column < columns.toNat := by
  have height := shaped.height
  rw [cellAt]
  by_cases high : row < lines.length
  · have width := shaped.width _ (List.getElem_mem high)
    rw [List.getElem?_eq_getElem high, Option.bind_some, isSome_getElem?]
    omega
  · rw [List.getElem?_eq_none (by omega)]
    simp only [Option.bind_none, Option.isSome_none, Bool.false_eq_true, false_iff, not_and]
    omega

theorem shaped_ext (rows columns : Int) (first second : List Line) (shaped : Shaped rows columns first)
    (shapedToo : Shaped rows columns second) (same : ∀ row column, cellAt first row column = cellAt second row column) :
    first = second := by
  have height := shaped.height
  have heightToo := shapedToo.height
  refine List.ext_getElem (by omega) fun row inside insideToo => ?_
  refine List.ext_getElem? fun column => ?_
  have here := same row column
  rwa [cellAt, cellAt, List.getElem?_eq_getElem inside, List.getElem?_eq_getElem insideToo, Option.bind_some, Option.bind_some] at here

-- A grid is the same after another size and back just when that size leaves out only spaces.
theorem grid_back_iff (lines resized back : List Line) (columns rows ownColumns ownRows : Int) (wide : 0 ≤ columns) (ownWide : 0 ≤ ownColumns)
    (shaped : Shaped ownRows ownColumns lines) (away : resizeGrid lines columns rows = some resized)
    (again : resizeGrid resized ownColumns ownRows = some back) (shapedBack : Shaped ownRows ownColumns back) :
    back = lines ↔ Vacant lines columns rows := by
  have cell : ∀ row column, cellAt back row column =
      if row < ownRows.toNat ∧ column < ownColumns.toNat then
        some (if row < rows.toNat ∧ column < columns.toNat then (cellAt lines row column).getD space else space)
      else none := by
    intro row column
    rw [resized_cell resized back ownColumns ownRows ownWide again, resized_cell lines resized columns rows wide away]
    by_cases kept : row < rows.toNat ∧ column < columns.toNat
    · rw [if_pos kept, if_pos kept, Option.getD_some]
    · rw [if_neg kept, if_neg kept, Option.getD_none]
  constructor
  · rintro rfl row column shown found outside
    have here := cell row column
    have inside := (shaped_cell ownRows ownColumns back shaped row column).mp (by rw [found]; rfl)
    rw [found, if_pos inside, if_neg (by omega)] at here
    exact Option.some.inj here
  · intro vacant
    refine shaped_ext ownRows ownColumns back lines shapedBack shaped fun row column => ?_
    have some_ := shaped_cell ownRows ownColumns lines shaped row column
    rw [cell]
    cases found : cellAt lines row column with
    | none =>
        rw [found] at some_
        rw [if_neg fun inside => Bool.false_ne_true (some_.mpr inside)]
    | some shown =>
        rw [found] at some_
        rw [if_pos (some_.mp rfl)]
        by_cases kept : row < rows.toNat ∧ column < columns.toNat
        · rw [if_pos kept, Option.getD_some]
        · rw [if_neg kept, vacant row column shown found (by omega)]

end grids

section rollback

structure Unchanged (before after : TerminalScreen) : Prop where
  size : after.columnsValue = before.columnsValue ∧ after.rowsValue = before.rowsValue
  lines : after.lines = before.lines
  cursor : after.cursorRow = before.cursorRow ∧ after.cursorColumn = before.cursorColumn
  margins : after.scrollTop = before.scrollTop ∧ after.scrollBottom = before.scrollBottom
  tabStops : ∀ stop, stop ∈ after.tabStops ↔ stop ∈ before.tabStops
  primary : after.primary = before.primary

-- A grid that another size takes nothing from: what is outside it is blank, the cursor is inside, and no margins are set.
structure Survives (ownRows columns rows : Int) (lines : List Line) (cursorRow cursorColumn scrollTop scrollBottom : Int) : Prop where
  vacant : Vacant lines columns rows
  cursor : cursorRow < rows ∧ cursorColumn < columns
  margins : scrollTop = 0 ∧ scrollBottom = ownRows - 1

structure Reversible (screen : TerminalScreen) (columns rows : Int) : Prop where
  active : Survives screen.rowsValue columns rows screen.lines screen.cursorRow screen.cursorColumn screen.scrollTop screen.scrollBottom
  tabStops : ∀ stop, stop ∈ screen.tabStops ↔ stop ∈ defaultTabStops screen.columnsValue
  saved : ∀ primary ∈ screen.primary, Survives screen.rowsValue columns rows primary.lines primary.cursorRow primary.cursorColumn
    primary.scrollTop primary.scrollBottom

theorem clamp_back (value size ownSize : Int) (inside : 0 ≤ value ∧ value < ownSize) (positive : 1 ≤ size) :
    clamp (clamp value 0 (size - 1)) 0 (ownSize - 1) = value ↔ value < size := by
  unfold clamp
  omega

-- One grid, resized and resized back.
theorem survives_iff (lines resized back : List Line) (columns rows ownColumns ownRows cursorRow cursorColumn scrollTop scrollBottom : Int)
    (wide : 2 ≤ columns) (high : 1 ≤ rows) (framed : Framed ownRows ownColumns lines cursorRow cursorColumn scrollTop scrollBottom)
    (away : resizeGrid lines columns rows = some resized) (again : resizeGrid resized ownColumns ownRows = some back) :
    (back = lines ∧ clamp (clamp cursorRow 0 (rows - 1)) 0 (ownRows - 1) = cursorRow ∧
        clamp (clamp cursorColumn 0 (columns - 1)) 0 (ownColumns - 1) = cursorColumn ∧ 0 = scrollTop ∧ ownRows - 1 = scrollBottom) ↔
      Survives ownRows columns rows lines cursorRow cursorColumn scrollTop scrollBottom := by
  have row := framed.row
  have column := framed.column
  obtain ⟨other, made, shaped⟩ := resize_grid resized ownColumns ownRows (by omega) (by omega)
  rw [again, Option.some_inj] at made
  subst made
  rw [grid_back_iff lines resized back columns rows ownColumns ownRows (by omega) (by omega) framed.grid away again shaped,
    clamp_back cursorRow rows ownRows row high, clamp_back cursorColumn columns ownColumns column (by omega)]
  constructor
  · intro parts
    exact ⟨parts.1, ⟨parts.2.1, parts.2.2.1⟩, ⟨parts.2.2.2.1.symm, parts.2.2.2.2.symm⟩⟩
  · intro survives
    exact ⟨survives.vacant, survives.cursor.1, survives.cursor.2, survives.margins.1.symm, survives.margins.2.symm⟩

-- What a resize to another size leaves.
structure ResizedTo (screen resized : TerminalScreen) (columns rows : Int) : Prop where
  fits : resized.Fits
  size : resized.columnsValue = columns ∧ resized.rowsValue = rows
  lines : resizeGrid screen.lines columns rows = some resized.lines
  primary : TerminalScreen.resizePrimary screen.primary columns rows = some resized.primary
  cursor : resized.cursorRow = clamp screen.cursorRow 0 (rows - 1) ∧ resized.cursorColumn = clamp screen.cursorColumn 0 (columns - 1)
  margins : resized.scrollTop = 0 ∧ resized.scrollBottom = rows - 1
  tabStops : resized.tabStops = defaultTabStops columns

theorem resized_to (screen : TerminalScreen) (columns rows : Int) (fits : screen.Fits) (wide : 2 ≤ columns) (high : 1 ≤ rows)
    (other : ¬(columns = screen.columnsValue ∧ rows = screen.rowsValue)) :
    ∃ resized, screen.resize columns rows = some resized ∧ ResizedTo screen resized columns rows := by
  obtain ⟨resized, result, fitsResized⟩ := screen.resize_safe columns rows fits wide high
  refine ⟨resized, result, ?_⟩
  rw [TerminalScreen.resize, if_neg other] at result
  obtain ⟨lines, copied, result⟩ := Option.bind_eq_some_iff.mp result
  obtain ⟨primary, saved, result⟩ := Option.bind_eq_some_iff.mp result
  obtain rfl := Option.some.inj result
  exact ⟨fitsResized, ⟨rfl, rfl⟩, copied, saved, ⟨rfl, rfl⟩, ⟨rfl, rfl⟩, rfl⟩

theorem primary_back_iff (screen : TerminalScreen) (fits : screen.Fits) (resized back : Option SavedPrimary) (columns rows : Int)
    (wide : 2 ≤ columns) (high : 1 ≤ rows) (away : TerminalScreen.resizePrimary screen.primary columns rows = some resized)
    (again : TerminalScreen.resizePrimary resized screen.columnsValue screen.rowsValue = some back) :
    back = screen.primary ↔ ∀ primary ∈ screen.primary, Survives screen.rowsValue columns rows primary.lines primary.cursorRow
      primary.cursorColumn primary.scrollTop primary.scrollBottom := by
  cases saved : screen.primary with
  | none =>
      rw [saved, TerminalScreen.resizePrimary, Option.some_inj] at away
      rw [← away, TerminalScreen.resizePrimary, Option.some_inj] at again
      simp [← again]
  | some primary =>
      rw [saved] at away
      obtain ⟨lines, copied, rfl⟩ := Option.map_eq_some_iff.mp away
      obtain ⟨linesBack, copiedBack, rfl⟩ := Option.map_eq_some_iff.mp again
      have survives := survives_iff primary.lines lines linesBack columns rows screen.columnsValue screen.rowsValue primary.cursorRow
        primary.cursorColumn primary.scrollTop primary.scrollBottom wide high (fits.saved primary saved) copied copiedBack
      cases primary with
      | mk ownLines cursorRow cursorColumn scrollTop scrollBottom wrap originMode =>
          simpa using survives

theorem rolled_back (screen : TerminalScreen) (columns rows : Int) (fits : screen.Fits) (wide : 2 ≤ columns) (high : 1 ≤ rows)
    (other : ¬(columns = screen.columnsValue ∧ rows = screen.rowsValue)) :
    ∃ resized back, screen.resize columns rows = some resized ∧ resized.resize screen.columnsValue screen.rowsValue = some back ∧
      (Unchanged screen back ↔ Reversible screen columns rows) := by
  obtain ⟨resized, result, away⟩ := resized_to screen columns rows fits wide high other
  have otherBack : ¬(screen.columnsValue = resized.columnsValue ∧ screen.rowsValue = resized.rowsValue) := by
    rw [away.size.1, away.size.2]
    omega
  obtain ⟨back, resultBack, toBack⟩ := resized_to resized screen.columnsValue screen.rowsValue away.fits fits.columns fits.rows otherBack
  refine ⟨resized, back, result, resultBack, ?_⟩
  have active := survives_iff screen.lines resized.lines back.lines columns rows screen.columnsValue screen.rowsValue screen.cursorRow
    screen.cursorColumn screen.scrollTop screen.scrollBottom wide high fits.active away.lines toBack.lines
  have saved := primary_back_iff screen fits resized.primary back.primary columns rows wide high away.primary toBack.primary
  rw [← away.cursor.1, ← away.cursor.2, ← toBack.cursor.1, ← toBack.cursor.2, ← toBack.margins.1, ← toBack.margins.2] at active
  constructor
  · intro same
    refine ⟨active.mp ⟨same.lines, same.cursor.1, same.cursor.2, same.margins.1, same.margins.2⟩, fun stop => ?_, saved.mp same.primary⟩
    rw [← same.tabStops stop, toBack.tabStops]
  · intro reversible
    obtain ⟨lines, row, column, top, bottom⟩ := active.mpr reversible.active
    refine ⟨toBack.size, lines, ⟨row, column⟩, ⟨top, bottom⟩, fun stop => ?_, saved.mpr reversible.saved⟩
    rw [toBack.tabStops, reversible.tabStops stop]

theorem sized_as_asked (screen : TerminalScreen) (columns rows : Int) (fits : screen.Fits) (wide : 2 ≤ columns) (high : 1 ≤ rows) :
    ∃ resized, screen.resize columns rows = some resized ∧ resized.Fits ∧ resized.columnsValue = columns ∧ resized.rowsValue = rows := by
  by_cases same : columns = screen.columnsValue ∧ rows = screen.rowsValue
  · exact ⟨screen, if_pos same, fits, same.1.symm, same.2.symm⟩
  · obtain ⟨resized, result, away⟩ := resized_to screen columns rows fits wide high same
    exact ⟨resized, result, away.fits, away.size.1, away.size.2⟩

theorem unchanged_refl (screen : TerminalScreen) : Unchanged screen screen :=
  ⟨⟨rfl, rfl⟩, rfl, ⟨rfl, rfl⟩, ⟨rfl, rfl⟩, fun _ => Iff.rfl, rfl⟩

end rollback

section concrete

-- A line of three cells with so many letters, as a feed leaves it.
def letterScreen : TerminalScreen where
  columnsValue := 3
  rowsValue := 1
  lines := [[[0x61], space, space]]
  cursorColumn := 1
  scrollBottom := 0
  tabStops := []
  dirty := true
  generationValue := 1

def fullScreen : TerminalScreen :=
  { letterScreen with lines := [[[0x61], [0x62], [0x63]]], cursorColumn := 2, wrapPending := true }

theorem letter_reached : Reached letterScreen :=
  .called _ _ (.feed [0x61]) trivial (.created 3 1 (by decide) (by decide) _ rfl) (by decide)

theorem full_reached : Reached fullScreen :=
  .called _ _ (.feed [0x61, 0x62, 0x63]) trivial (.created 3 1 (by decide) (by decide) _ rfl) (by decide)

end concrete

-- A resize that fails changes nothing just when the screen had the terminal's size and either that size is asked for, or the
-- other one takes nothing from either grid and the margins and tab stops are as they are after a resize.
theorem failed_resize_iff (session : ScreenSession) (reached : Reached session.screen)
    (sized : 2 ≤ session.columns ∧ 1 ≤ session.rows) (columns rows : Int) (wide : 2 ≤ columns) (high : 1 ≤ rows) (error : String) :
    ∃ after, session.resize columns rows (.error error) = some (.error error, after) ∧
      (Unchanged session.screen after.screen ↔
        (session.columns = session.screen.columnsValue ∧ session.rows = session.screen.rowsValue) ∧
          ((columns = session.screen.columnsValue ∧ rows = session.screen.rowsValue) ∨ Reversible session.screen columns rows)) := by
  have fits := reached_fits session.screen reached
  obtain ⟨resized, result, fitsResized, size⟩ := sized_as_asked session.screen columns rows fits wide high
  obtain ⟨back, resultBack, _, sizeBack⟩ := sized_as_asked resized session.columns session.rows fitsResized sized.1 sized.2
  have failed : session.resize columns rows (.error error) = some (.error error, { session with screen := back }) := by
    simp only [ScreenSession.resize, result, resultBack, bind, Option.bind]
  refine ⟨_, failed, ?_⟩
  dsimp only
  by_cases own : session.columns = session.screen.columnsValue ∧ session.rows = session.screen.rowsValue
  · rw [own.1, own.2] at resultBack
    by_cases same : columns = session.screen.columnsValue ∧ rows = session.screen.rowsValue
    · rw [TerminalScreen.resize, if_pos same, Option.some_inj] at result
      subst result
      rw [TerminalScreen.resize, if_pos ⟨rfl, rfl⟩, Option.some_inj] at resultBack
      subst resultBack
      exact iff_of_true (unchanged_refl _) ⟨own, Or.inl same⟩
    · obtain ⟨other, otherBack, made, madeBack, iff_⟩ := rolled_back session.screen columns rows fits wide high same
      obtain rfl := Option.some.inj (result.symm.trans made)
      obtain rfl := Option.some.inj (resultBack.symm.trans madeBack)
      rw [iff_, and_iff_right own, or_iff_right same]
  · refine iff_of_false (fun unchanged => own ⟨?_, ?_⟩) fun both => own both.1
    · rw [← unchanged.size.1, sizeBack.1]
    · rw [← unchanged.size.2, sizeBack.2]

theorem failed_resize_letter : ∃ after, (ScreenSession.mk letterScreen 3 1).resize 2 1 (.error "EIO") = some (.error "EIO", after) ∧
    Unchanged letterScreen after.screen := by
  obtain ⟨after, failed, iff_⟩ := failed_resize_iff ⟨letterScreen, 3, 1⟩ letter_reached (by decide) 2 1 (by decide) (by decide) "EIO"
  refine ⟨after, failed, iff_.mpr ⟨⟨rfl, rfl⟩, Or.inr ⟨⟨fun row column cell found outside => ?_, by decide, by decide⟩, fun stop => ?_, ?_⟩⟩⟩
  · rcases row with _ | row
    · rcases column with _ | _ | _ | column
      · omega
      · omega
      · exact (Option.some.inj found).symm
      · cases found
    · cases found
  · have none_ : defaultTabStops 3 = [] := by decide
    change stop ∈ [] ↔ stop ∈ defaultTabStops 3
    rw [none_]
  · intro primary found
    cases found

-- The third letter is cut off when the screen is made narrower and does not come back.
theorem failed_resize_cuts : Reached fullScreen ∧
    ∃ after, (ScreenSession.mk fullScreen 3 1).resize 2 1 (.error "EIO") = some (.error "EIO", after) ∧
      after.screen.lines = [[[0x61], [0x62], space]] ∧ ¬Unchanged fullScreen after.screen := by
  refine ⟨full_reached, ⟨{ fullScreen with
    lines := [[[0x61], [0x62], space]], cursorColumn := 1, wrapPending := false, generationValue := 3 }, 3, 1⟩, ?_, rfl, ?_⟩
  · rfl
  · intro unchanged
    have lines := unchanged.lines
    revert lines
    decide

end Vacps.Terminal
