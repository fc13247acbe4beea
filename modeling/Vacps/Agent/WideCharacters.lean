import Vacps.Agent.ScreenShape
import Vacps.Agent.WholeLines
import Vacps.Library.Runs

/- Writing over one half of a wide character blanks the other; an edit or a new size that parts the line
   between the two leaves a half behind. -/
set_option autoImplicit false

namespace Vacps.Terminal

open Library Library.JsArray

structure TerminalScreen.Whole (screen : TerminalScreen) : Prop where
  active : ∀ line ∈ screen.lines, WholeLine line
  saved : ∀ primary ∈ screen.primary, ∀ line ∈ primary.lines, WholeLine line

namespace TerminalScreen

-- Every screen the step leaves is whole.
def AllWhole (result : Option TerminalScreen) : Prop := ∀ screen, result = some screen → screen.Whole

theorem whole_some (screen : TerminalScreen) (whole : screen.Whole) : AllWhole (some screen) := by
  intro same result
  rw [← Option.some.inj result]
  exact whole

theorem whole_bind (result : Option TerminalScreen) (next : TerminalScreen → Option TerminalScreen) (safe : Safe result)
    (whole : AllWhole result) (later : ∀ screen : TerminalScreen, screen.Fits → screen.Whole → AllWhole (next screen)) :
    AllWhole (result >>= next) := by
  obtain ⟨screen, rfl, fits⟩ := safe
  exact later screen fits (whole screen rfl)

theorem whole_map (result : Option TerminalScreen) (change : TerminalScreen → TerminalScreen) (whole : AllWhole result)
    (kept : ∀ screen : TerminalScreen, screen.Whole → (change screen).Whole) : AllWhole (result.map change) := by
  intro last same
  obtain ⟨screen, found, rfl⟩ := Option.map_eq_some_iff.mp same
  exact kept screen (whole screen found)

def lineAt (screen : TerminalScreen) (row : Int) : Line := (at? screen.lines row).getD []

theorem line_found (screen : TerminalScreen) (row : Int) (fits : screen.Fits) (inside : 0 ≤ row ∧ row < screen.rowsValue) :
    at? screen.lines row = some (screen.lineAt row) ∧ screen.lineAt row ∈ screen.lines := by
  obtain ⟨line, read, member⟩ := at_inside screen.lines row inside.1 (by rw [fits.active.grid.height]; exact inside.2)
  rw [lineAt, read]
  exact ⟨rfl, member⟩

theorem edit_whole (screen : TerminalScreen) (row : Int) (edit : Line → Option Line) (fits : screen.Fits)
    (inside : 0 ≤ row ∧ row < screen.rowsValue) (whole : screen.Whole)
    (edits : ∀ edited, WholeLine (screen.lineAt row) → ((screen.lineAt row).length : Int) = screen.columnsValue →
      edit (screen.lineAt row) = some edited → WholeLine edited) : AllWhole (screen.editLine row edit) := by
  intro next result
  obtain ⟨read, member⟩ := screen.line_found row fits inside
  rw [editLine, read] at result
  simp only [bind, Option.bind] at result
  cases made : edit (screen.lineAt row) with
  | none =>
      rw [made] at result
      cases result
  | some edited =>
      rw [made] at result
      dsimp only at result
      rw [set_inside _ _ _ inside.1 (by rw [fits.active.grid.height]; exact inside.2)] at result
      rw [← Option.some.inj result]
      refine ⟨fun line found => ?_, whole.saved⟩
      rcases List.mem_or_eq_of_mem_set found with old | rfl
      · exact whole.active line old
      · exact edits _ (whole.active _ member) (fits.active.grid.width _ member) made

theorem dirty_whole (screen : TerminalScreen) (whole : screen.Whole) : screen.markDirty.Whole := ⟨whole.active, whole.saved⟩

theorem edit_here_whole (screen : TerminalScreen) (edit : Line → Option Line) (fits : screen.Fits) (whole : screen.Whole)
    (edits : ∀ edited, WholeLine (screen.lineAt screen.cursorRow) →
      ((screen.lineAt screen.cursorRow).length : Int) = screen.columnsValue →
      edit (screen.lineAt screen.cursorRow) = some edited → WholeLine edited) :
    AllWhole ((screen.editLine screen.cursorRow edit).map markDirty) :=
  whole_map _ markDirty (screen.edit_whole screen.cursorRow edit fits fits.active.row whole edits) dirty_whole

theorem grid_whole (rows columns : Int) (lines : List Line) (made : makeGrid rows columns = some lines) :
    ∀ line ∈ lines, WholeLine line := by
  intro line member
  unfold makeGrid at made
  split at made
  · rw [← Option.some.inj made] at member
    exact absurd member List.not_mem_nil
  · obtain ⟨blank, new, same⟩ := Option.map_eq_some_iff.mp made
    unfold newArray at new
    split at new
    · rw [← same] at member
      rw [List.eq_of_mem_replicate member, ← Option.some.inj new]
      exact blank_whole _
    · exact nomatch new

-- Whole lines in the place of whole lines.
theorem replaced_whole (screen : TerminalScreen) (amount : Int) (lines : List Line → List Line) (whole : screen.Whole)
    (source : ∀ blank line, line ∈ lines blank → line ∈ screen.lines ∨ line ∈ blank) :
    AllWhole ((makeGrid amount screen.columnsValue).map fun blank => { screen with lines := lines blank, dirty := true }) := by
  intro next result
  obtain ⟨blank, made, rfl⟩ := Option.map_eq_some_iff.mp result
  refine ⟨fun line member => ?_, whole.saved⟩
  rcases source blank line member with old | fresh
  · exact whole.active line old
  · exact grid_whole _ _ blank made line fresh

theorem spliced_twice (lines first second : List Line) (start deleteCount position removed : Int) (line : Line)
    (member : line ∈ splice (splice lines start deleteCount first) position removed second) :
    line ∈ lines ∨ line ∈ first ∨ line ∈ second := by
  rcases mem_splice _ _ _ _ line member with earlier | fresh
  · rcases mem_splice _ _ _ _ line earlier with old | new
    · exact Or.inl old
    · exact Or.inr (Or.inl new)
  · exact Or.inr (Or.inr fresh)

theorem scroll_up_whole (screen : TerminalScreen) (count : Int) (whole : screen.Whole) : AllWhole (screen.scrollUp count) := by
  apply screen.replaced_whole _ _ whole
  intro blank line member
  rcases spliced_twice _ _ _ _ _ _ _ line member with old | none | fresh
  · exact Or.inl old
  · exact absurd none List.not_mem_nil
  · exact Or.inr fresh

theorem scroll_down_whole (screen : TerminalScreen) (count : Int) (whole : screen.Whole) : AllWhole (screen.scrollDown count) := by
  apply screen.replaced_whole _ _ whole
  intro blank line member
  rcases spliced_twice _ _ _ _ _ _ _ line member with old | none | fresh
  · exact Or.inl old
  · exact absurd none List.not_mem_nil
  · exact Or.inr fresh

theorem insert_lines_whole (screen : TerminalScreen) (count : Int) (whole : screen.Whole) : AllWhole (screen.insertLines count) := by
  unfold insertLines
  split
  · exact whole_some screen whole
  · apply screen.replaced_whole _ _ whole
    intro blank line member
    rcases spliced_twice _ _ _ _ _ _ _ line member with old | fresh | none
    · exact Or.inl old
    · exact Or.inr fresh
    · exact absurd none List.not_mem_nil

theorem delete_lines_whole (screen : TerminalScreen) (count : Int) (whole : screen.Whole) : AllWhole (screen.deleteLines count) := by
  unfold deleteLines
  split
  · exact whole_some screen whole
  · apply screen.replaced_whole _ _ whole
    intro blank line member
    rcases spliced_twice _ _ _ _ _ _ _ line member with old | none | fresh
    · exact Or.inl old
    · exact absurd none List.not_mem_nil
    · exact Or.inr fresh

theorem move_whole (screen : TerminalScreen) (row column : Int) (whole : screen.Whole) : (screen.moveCursor row column).Whole := by
  unfold moveCursor
  dsimp only
  split <;> exact ⟨whole.active, whole.saved⟩

theorem line_feed_whole (screen : TerminalScreen) (whole : screen.Whole) : AllWhole screen.lineFeed := by
  unfold lineFeed
  split
  · exact screen.scroll_up_whole 1 whole
  · exact whole_some _ (screen.move_whole _ _ whole)

theorem reverse_index_whole (screen : TerminalScreen) (whole : screen.Whole) : AllWhole screen.reverseIndex := by
  unfold reverseIndex
  split
  · exact screen.scroll_down_whole 1 whole
  · exact whole_some _ (screen.move_whole _ _ whole)

theorem carriage_line_feed_whole (screen : TerminalScreen) (whole : screen.Whole) : AllWhole screen.carriageLineFeed :=
  whole_map _ _ (screen.line_feed_whole whole) fun _ fed => ⟨fed.active, fed.saved⟩

-- None of the columns cuts a character of the cursor's line in two.
def Clean (screen : TerminalScreen) (columns : List Int) : Prop :=
  ∀ column ∈ columns, ¬MidCharacter (screen.lineAt screen.cursorRow) column

instance (screen : TerminalScreen) (columns : List Int) : Decidable (screen.Clean columns) := List.decidableBAll _ _

-- Where a control sequence parts the cursor's line.
def cuts (screen : TerminalScreen) (final : Char) (params : List Int) : List Int :=
  let column := screen.cursorColumn
  let columns := screen.columnsValue
  match final with
  | 'J' => if param params 0 = 2 ∨ param params 0 = 3 then [] else if param params 0 = 1 then [column + 1] else [column]
  | 'K' => if param params 0 = 1 then [column + 1] else if param params 0 = 2 then [] else [column]
  | '@' => [column, columns - min (countOf params) (columns - column)]
  | 'X' => [column, min columns (column + countOf params)]
  | _ => []

-- What moves up to the cursor fits what stands before it.
def Rejoins (screen : TerminalScreen) (count : Int) : Prop :=
  MidCharacter (screen.lineAt screen.cursorRow) screen.cursorColumn ↔
    MidCharacter (screen.lineAt screen.cursorRow) (screen.cursorColumn + min count (screen.columnsValue - screen.cursorColumn))

instance (screen : TerminalScreen) (count : Int) : Decidable (screen.Rejoins count) := inferInstanceAs (Decidable (_ ↔ _))

def UncutCsi (screen : TerminalScreen) (final : Char) (params : List Int) : Prop :=
  screen.Clean (screen.cuts final params) ∧ (final = 'P' → screen.Rejoins (countOf params))

instance (screen : TerminalScreen) (final : Char) (params : List Int) : Decidable (screen.UncutCsi final params) :=
  inferInstanceAs (Decidable (_ ∧ _))

-- A character of the width fits where the cursor is.
def Room (screen : TerminalScreen) (width : Int) : Prop :=
  (width = 2 → screen.cursorColumn + 1 < screen.columnsValue) ∧
    (screen.insertMode = true → screen.Clean [screen.cursorColumn, screen.columnsValue - width])

instance (screen : TerminalScreen) (width : Int) : Decidable (screen.Room width) := inferInstanceAs (Decidable (_ ∧ _))

def Wraps (screen : TerminalScreen) (width : Int) : Prop :=
  screen.wrap = true ∧ (screen.wrapPending = true ∨ screen.columnsValue - screen.cursorColumn < width)

instance (screen : TerminalScreen) (width : Int) : Decidable (screen.Wraps width) := inferInstanceAs (Decidable (_ ∧ _))

-- A character that wraps goes to the start of the row below, which is fresh if the screen scrolls.
def UncutWrite (screen : TerminalScreen) (character : Nat) : Prop :=
  let width := codePointWidth character
  width = 0 ∨
    if screen.Wraps width then
      screen.insertMode = true → screen.cursorRow ≠ screen.scrollBottom →
        ¬MidCharacter (screen.lineAt (screen.clampRow (min (screen.rowsValue - 1) (screen.cursorRow + 1))))
          (screen.columnsValue - width)
    else screen.Room width

instance (screen : TerminalScreen) (character : Nat) : Decidable (screen.UncutWrite character) :=
  inferInstanceAs (Decidable (_ ∨ _))

def Uncut (screen : TerminalScreen) (code : Nat) : Prop :=
  (screen.parserState = .ground → 0x20 ≤ code → screen.UncutWrite (screen.translateCharacter code)) ∧
    (screen.parserState = .csi → 0x40 ≤ code ∧ code ≤ 0x7e → screen.UncutCsi (Char.ofNat code) (paramsOf screen.control))

instance (screen : TerminalScreen) (code : Nat) : Decidable (screen.Uncut code) := inferInstanceAs (Decidable (_ ∧ _))

-- The new width cuts no character of the rows that are kept.
def UncutResize (screen : TerminalScreen) (columns rows : Int) : Prop :=
  (∀ line ∈ screen.lines.take rows.toNat, ¬MidCharacter line columns) ∧
    ∀ primary ∈ screen.primary, ∀ line ∈ primary.lines.take rows.toNat, ¬MidCharacter line columns

theorem erase_line_whole (screen : TerminalScreen) (params : List Int) (fits : screen.Fits) (whole : screen.Whole)
    (uncut : screen.UncutCsi 'K' params) : AllWhole (screen.eraseLine (param params 0)) := by
  have column := fits.active.column
  have clean := uncut.1
  apply screen.edit_here_whole _ fits whole
  intro edited wholeLine width result
  rw [← Option.some.inj result]
  simp only [cuts] at clean
  split
  · rename_i left
    rw [if_pos left] at clean
    exact fill_whole _ 0 _ wholeLine (le_refl _) (by omega) (by omega)
      ⟨start_clean _ wholeLine, clean _ List.mem_cons_self⟩
  · rename_i right
    rw [if_neg right] at clean
    split
    · exact fill_all_whole _ wholeLine
    · rename_i notAll
      rw [if_neg notAll] at clean
      exact fill_whole _ _ _ wholeLine column.1 (by omega) (le_refl _)
        ⟨clean _ List.mem_cons_self, end_clean _ _ (le_refl _)⟩

theorem erase_characters_whole (screen : TerminalScreen) (params : List Int) (fits : screen.Fits) (whole : screen.Whole)
    (uncut : screen.UncutCsi 'X' params) : AllWhole (screen.eraseCharacters (countOf params)) := by
  have column := fits.active.column
  have count : 1 ≤ countOf params := le_max_left _ _
  have clean := uncut.1
  apply screen.edit_here_whole _ fits whole
  intro edited wholeLine width result
  rw [← Option.some.inj result]
  exact fill_whole _ _ _ wholeLine column.1 (by omega) (by omega)
    ⟨clean _ List.mem_cons_self, clean _ (List.mem_cons_of_mem _ List.mem_cons_self)⟩

theorem insert_characters_whole (screen : TerminalScreen) (count : Int) (fits : screen.Fits) (whole : screen.Whole)
    (positive : 0 ≤ count)
    (clean : screen.Clean [screen.cursorColumn, screen.columnsValue - min count (screen.columnsValue - screen.cursorColumn)]) :
    AllWhole (screen.insertCharacters count) := by
  have column := fits.active.column
  apply screen.edit_here_whole _ fits whole
  intro edited wholeLine width result
  exact insert_whole _ _ _ _ edited wholeLine width column.1 (by omega) (by omega)
    ⟨clean _ List.mem_cons_self, clean _ (List.mem_cons_of_mem _ List.mem_cons_self)⟩ result

theorem delete_characters_whole (screen : TerminalScreen) (count : Int) (fits : screen.Fits) (whole : screen.Whole)
    (positive : 0 ≤ count) (rejoins : screen.Rejoins count) : AllWhole (screen.deleteCharacters count) := by
  have column := fits.active.column
  apply screen.edit_here_whole _ fits whole
  intro edited wholeLine width result
  exact delete_whole _ _ _ _ edited wholeLine width column.1 (by omega) (by omega) rejoins result

theorem fill_rows_whole (screen : TerminalScreen) (first : Int) (n : Nat) (fits : screen.Fits) (whole : screen.Whole)
    (low : 0 ≤ first) (high : first + n ≤ screen.rowsValue) : AllWhole (screen.fillRows first n) := by
  induction n generalizing screen first with
  | zero => exact whole_some screen whole
  | succ n ih =>
      obtain ⟨lines, filled, after⟩ := screen.edit_line first _ fits ⟨low, by omega⟩
        (keeps_fill screen.columnsValue (fun _ => 0) fun line => line.length)
      have wholeAfter : Whole { screen with lines := lines } := by
        apply screen.edit_whole first _ fits ⟨low, by omega⟩ whole _ _ filled
        intro edited wholeLine _ result
        rw [← Option.some.inj result]
        exact fill_all_whole _ wholeLine
      rw [fillRows, filled]
      exact ih { screen with lines := lines } (first + 1) after wholeAfter (by omega) (by dsimp only; omega)

def withLine (screen : TerminalScreen) (row : Int) (line : Line) : TerminalScreen :=
  { screen with lines := screen.lines.set row.toNat line }

theorem edit_line_eq (screen : TerminalScreen) (row : Int) (edit : Line → Option Line) (fits : screen.Fits)
    (inside : 0 ≤ row ∧ row < screen.rowsValue) :
    screen.editLine row edit = (edit (screen.lineAt row)).map (screen.withLine row) := by
  obtain ⟨read, -⟩ := screen.line_found row fits inside
  rw [editLine, read]
  simp only [bind, Option.bind]
  cases edit (screen.lineAt row) with
  | none => rfl
  | some edited =>
      dsimp only
      rw [set_inside _ _ _ inside.1 (by rw [fits.active.grid.height]; exact inside.2)]
      rfl

theorem edit_with_line (screen : TerminalScreen) (row : Int) (line : Line) (edit : Line → Option Line) (fits : screen.Fits)
    (inside : 0 ≤ row ∧ row < screen.rowsValue) :
    (screen.withLine row line).editLine row edit = (edit line).map (screen.withLine row) := by
  have height := fits.active.grid.height
  have bound : row.toNat < screen.lines.length := by omega
  have read : at? (screen.withLine row line).lines row = some line := by
    rw [at?, if_pos inside.1, withLine, List.getElem?_set_self bound]
  rw [editLine, read]
  simp only [bind, Option.bind]
  cases edit line with
  | none => rfl
  | some edited =>
      dsimp only
      rw [set_inside _ _ _ inside.1 (by rw [withLine, List.length_set]; omega)]
      simp only [withLine, List.set_set, Option.map_some]

theorem other_line (screen : TerminalScreen) (row other : Int) (line : Line) (low : 0 ≤ row) (apart : row ≠ other) :
    (screen.withLine row line).lineAt other = screen.lineAt other := by
  unfold lineAt at? withLine
  by_cases positive : 0 ≤ other
  · rw [if_pos positive, if_pos positive, List.getElem?_set_ne (by omega)]
  · rw [if_neg positive, if_neg positive]

theorem fill_rows_apart (screen filled : TerminalScreen) (first : Int) (n : Nat) (row : Int) (fits : screen.Fits)
    (low : 0 ≤ first) (high : first + n ≤ screen.rowsValue) (apart : first + n ≤ row)
    (result : screen.fillRows first n = some filled) : filled.lineAt row = screen.lineAt row := by
  induction n generalizing screen first with
  | zero =>
      rw [← Option.some.inj result]
  | succ n ih =>
      obtain ⟨lines, edited, after⟩ := screen.edit_line first _ fits ⟨low, by omega⟩
        (keeps_fill screen.columnsValue (fun _ => 0) fun line => line.length)
      rw [fillRows, edited] at result
      have rest := ih { screen with lines := lines } (first + 1) after (by omega) (by dsimp only; omega) (by omega) result
      rw [screen.edit_line_eq first _ fits ⟨low, by omega⟩] at edited
      have same : screen.withLine first _ = { screen with lines := lines } := Option.some.inj edited
      rw [rest, ← same]
      exact screen.other_line first row _ low (by omega)

theorem erase_display_whole (screen : TerminalScreen) (params : List Int) (fits : screen.Fits) (whole : screen.Whole)
    (uncut : screen.UncutCsi 'J' params) : AllWhole (screen.eraseDisplay (param params 0)) := by
  have row := fits.active.row
  have column := fits.active.column
  have clean := uncut.1
  simp only [cuts] at clean
  unfold eraseDisplay
  split
  · intro next result
    obtain ⟨lines, made, rfl⟩ := Option.map_eq_some_iff.mp result
    exact ⟨grid_whole _ _ lines made, whole.saved⟩
  · rename_i notAll
    rw [if_neg notAll] at clean
    split
    · rename_i above
      rw [if_pos above] at clean
      obtain ⟨lines, filled, fitsAbove⟩ := screen.fill_rows 0 screen.cursorRow.toNat fits (le_refl _) (by omega)
      have wholeAbove := screen.fill_rows_whole 0 screen.cursorRow.toNat fits whole (le_refl _) (by omega) _ filled
      have here := screen.fill_rows_apart _ 0 screen.cursorRow.toNat screen.cursorRow fits (le_refl _) (by omega) (by omega) filled
      rw [Clean, ← here] at clean
      rw [filled]
      apply whole_bind _ _ (edit_line_safe _ screen.cursorRow _ fitsAbove row (keeps_fill _ _ _)) _
        fun erased _ wholeErased => whole_some _ (dirty_whole erased wholeErased)
      apply edit_whole _ screen.cursorRow _ fitsAbove row wholeAbove
      intro edited wholeLine width result
      dsimp only at width
      rw [← Option.some.inj result]
      exact fill_whole _ 0 _ wholeLine (le_refl _) (by omega) (by omega)
        ⟨start_clean _ wholeLine, clean _ List.mem_cons_self⟩
    · rename_i below
      rw [if_neg below] at clean
      obtain ⟨lines, filled, fitsHere⟩ := screen.edit_line screen.cursorRow _ fits row
        (keeps_fill screen.columnsValue (fun _ => screen.cursorColumn) fun line => line.length)
      have wholeHere : Whole { screen with lines := lines } := by
        apply screen.edit_whole screen.cursorRow _ fits row whole _ _ filled
        intro edited wholeLine width result
        rw [← Option.some.inj result]
        exact fill_whole _ _ _ wholeLine column.1 (by omega) (le_refl _)
          ⟨clean _ List.mem_cons_self, end_clean _ _ (le_refl _)⟩
      obtain ⟨last, rest, fitsBelow⟩ := fill_rows { screen with lines := lines } (screen.cursorRow + 1)
        (screen.rowsValue - (screen.cursorRow + 1)).toNat fitsHere (by omega) (by dsimp only; omega)
      rw [filled]
      apply whole_bind _ _ ⟨_, rest, fitsBelow⟩ _ fun erased _ wholeErased => whole_some _ (dirty_whole erased wholeErased)
      exact fill_rows_whole _ _ _ fitsHere wholeHere (by omega) (by dsimp only; omega)

-- A mark has no width of its own, so the cell it joins opens and closes what it did.
theorem combine_whole (screen : TerminalScreen) (character : Nat) (mark : codePointWidth character = 0) (fits : screen.Fits)
    (whole : screen.Whole) : AllWhole (screen.combine character) := by
  have row := fits.active.row
  have column := fits.active.column
  obtain ⟨readLine, -⟩ := screen.line_found screen.cursorRow fits row
  intro next result
  simp only [combine, readLine, bind, Option.bind] at result
  cases readCurrent : at? (screen.lineAt screen.cursorRow) screen.cursorColumn with
  | none =>
      rw [readCurrent] at result
      cases result
  | some current =>
      rw [readCurrent] at result
      dsimp only at result
      generalize target : (if screen.wrapPending = true ∧ current ≠ [] then screen.cursorColumn
        else max 0 (screen.cursorColumn - 1)) = place at result
      have inside : 0 ≤ place ∧ place < screen.columnsValue := by
        rw [← target]
        split <;> omega
      cases readCell : at? (screen.lineAt screen.cursorRow) place with
      | none =>
          rw [readCell] at result
          cases result
      | some cell =>
          rw [readCell] at result
          dsimp only at result
          split at result
          · rename_i filled
            obtain ⟨edited, done, rfl⟩ := Option.map_eq_some_iff.mp result
            apply dirty_whole
            refine screen.edit_whole screen.cursorRow _ fits row whole ?_ edited done
            intro line wholeLine width set
            obtain ⟨before, other, after, shape, here⟩ := split_at (screen.lineAt screen.cursorRow) place inside.1 (by omega)
            rw [shape, ← here] at readCell set
            rw [at_split] at readCell
            rw [set_split] at set
            cases Option.some.inj readCell
            rw [← Option.some.inj set]
            rw [shape] at wholeLine
            exact marked_whole before after _ character filled mark wholeLine
          · rw [← Option.some.inj result]
            exact whole

theorem width_cases (character : Nat) : codePointWidth character = 0 ∨ codePointWidth character = 1 ∨ codePointWidth character = 2 := by
  unfold codePointWidth
  split
  · exact Or.inl rfl
  · split
    · exact Or.inr (Or.inr rfl)
    · exact Or.inr (Or.inl rfl)

theorem wide_single (character : Nat) : isWide [character] = true ↔ codePointWidth character = 2 := by
  simp [isWide]

theorem moved_row (screen : TerminalScreen) (row column : Int) : (screen.moveCursor row column).cursorRow = screen.clampRow row := by
  unfold moveCursor
  dsimp only
  split
  · rfl
  · rename_i still
    exact Decidable.byContradiction fun moved => still (Or.inl fun same => moved same.symm)

theorem moved_rest (screen : TerminalScreen) (row column : Int) :
    (screen.moveCursor row column).lines = screen.lines ∧ (screen.moveCursor row column).columnsValue = screen.columnsValue ∧
      (screen.moveCursor row column).insertMode = screen.insertMode := by
  unfold moveCursor
  dsimp only
  split <;> exact ⟨rfl, rfl, rfl⟩

theorem blank_clean (count : Nat) (column : Int) : ¬MidCharacter (List.replicate count space) column := by
  unfold MidCharacter at?
  split
  · rw [List.getElem?_replicate]
    split <;> simp [space]
  · exact fun impossible => nomatch impossible

-- Behind a line feed the cursor is on a fresh line or on the row below.
theorem fed_line (screen fed : TerminalScreen) (fits : screen.Fits) (result : screen.lineFeed = some fed) :
    fed.columnsValue = screen.columnsValue ∧ fed.insertMode = screen.insertMode ∧
      (screen.cursorRow = screen.scrollBottom ∧ fed.lineAt fed.cursorRow = List.replicate screen.columnsValue.toNat space ∨
        screen.cursorRow ≠ screen.scrollBottom ∧ fed.lineAt fed.cursorRow =
          screen.lineAt (screen.clampRow (min (screen.rowsValue - 1) (screen.cursorRow + 1)))) := by
  have region := fits.active.region
  have height := fits.active.grid.height
  have columns := fits.columns
  unfold lineFeed at result
  split at result
  · rename_i bottom
    have one : min 1 (screen.scrollBottom - screen.scrollTop + 1) = 1 := by omega
    have made : makeGrid 1 screen.columnsValue = some [List.replicate screen.columnsValue.toNat space] := by
      unfold makeGrid
      rw [if_neg (by decide), new_array _ _ (by omega)]
      rfl
    rw [scrollUp, one] at result
    simp only [made, Option.map_some] at result
    rw [← Option.some.inj result]
    refine ⟨rfl, rfl, Or.inl ⟨bottom, ?_⟩⟩
    have kept := splice_length screen.lines [] screen.scrollTop 1 region.1 (by decide) (by omega)
    have place : screen.scrollBottom - 1 + 1 = screen.cursorRow := by omega
    have read := at_splice (splice screen.lines screen.scrollTop 1 []) screen.cursorRow
      (List.replicate screen.columnsValue.toNat space) fits.active.row.1 (by
        rw [kept, List.length_nil]
        omega)
    rw [lineAt, place]
    rw [read]
    rfl
  · rename_i above
    rw [← Option.some.inj result]
    obtain ⟨lines, width, mode⟩ := screen.moved_rest (min (screen.rowsValue - 1) (screen.cursorRow + 1)) screen.cursorColumn
    refine ⟨width, mode, Or.inr ⟨above, ?_⟩⟩
    rw [lineAt, moved_row, lines, lineAt]

-- What a character that has wrapped finds.
theorem carriage_room (screen fed : TerminalScreen) (width : Int) (fits : screen.Fits) (whole : screen.Whole)
    (uncut : screen.insertMode = true → screen.cursorRow ≠ screen.scrollBottom →
      ¬MidCharacter (screen.lineAt (screen.clampRow (min (screen.rowsValue - 1) (screen.cursorRow + 1))))
        (screen.columnsValue - width)) (result : screen.carriageLineFeed = some fed) :
    fed.cursorColumn = 0 ∧ fed.columnsValue = screen.columnsValue ∧ fed.Room width := by
  have columns := fits.columns
  obtain ⟨next, made, rfl⟩ := Option.map_eq_some_iff.mp result
  obtain ⟨behind, done, fitsBehind⟩ := screen.line_feed_safe fits
  have same : behind = next := Option.some.inj (done.symm.trans made)
  rw [same] at fitsBehind
  have wholeBehind := screen.line_feed_whole whole next made
  obtain ⟨size, mode, place⟩ := screen.fed_line next fits made
  refine ⟨rfl, size, fun _ => ?_, fun insert column member => ?_⟩
  · dsimp only
    omega
  · obtain ⟨-, inLines⟩ := next.line_found next.cursorRow fitsBehind fitsBehind.active.row
    rcases List.mem_cons.mp member with rfl | last
    · exact start_clean _ (wholeBehind.active _ inLines)
    · rw [List.mem_singleton.mp last]
      dsimp only
      rw [size]
      rcases place with ⟨-, fresh⟩ | ⟨above, below⟩
      · change ¬MidCharacter (next.lineAt next.cursorRow) _
        rw [fresh]
        exact blank_clean _ _
      · change ¬MidCharacter (next.lineAt next.cursorRow) _
        rw [below]
        exact uncut (mode.symm.trans insert) above

theorem wrap_pending_whole (screen : TerminalScreen) (whole : screen.Whole) : AllWhole screen.wrapIfPending := by
  unfold wrapIfPending
  split
  · refine whole_map _ _ ?_ fun _ wrapped => ⟨wrapped.active, wrapped.saved⟩
    split
    · exact screen.carriage_line_feed_whole whole
    · exact whole_some screen whole
  · exact whole_some screen whole

theorem wrap_wide_whole (screen : TerminalScreen) (width : Int) (whole : screen.Whole) : AllWhole (screen.wrapIfWide width) := by
  unfold wrapIfWide
  split
  · split
    · exact whole_some _ ⟨whole.active, whole.saved⟩
    · exact screen.carriage_line_feed_whole whole
  · exact whole_some screen whole

theorem placed_room (screen placed : TerminalScreen) (width : Int) (fits : screen.Fits) (whole : screen.Whole)
    (size : width = 1 ∨ width = 2)
    (uncut : if screen.Wraps width then
        screen.insertMode = true → screen.cursorRow ≠ screen.scrollBottom →
          ¬MidCharacter (screen.lineAt (screen.clampRow (min (screen.rowsValue - 1) (screen.cursorRow + 1))))
            (screen.columnsValue - width)
      else screen.Room width)
    (result : (screen.wrapIfPending >>= fun wrapped => wrapped.wrapIfWide width) = some placed) : placed.Room width := by
  have columns := fits.columns
  have column := fits.active.column
  by_cases wraps : screen.Wraps width
  · rw [if_pos wraps] at uncut
    obtain ⟨wrap, reason⟩ := wraps
    by_cases pending : screen.wrapPending = true
    · rw [wrapIfPending, if_pos pending, if_pos wrap] at result
      obtain ⟨fed, done, -⟩ := screen.carriage_line_feed_safe fits
      obtain ⟨home, same, room⟩ := screen.carriage_room fed width fits whole uncut done
      rw [done] at result
      have stays : wrapIfWide { fed with wrapPending := false } width = some { fed with wrapPending := false } := by
        unfold wrapIfWide
        rw [if_neg (by dsimp only; omega)]
      have last : wrapIfWide { fed with wrapPending := false } width = some placed := result
      rw [stays] at last
      rw [← Option.some.inj last]
      exact room
    · have short := reason.resolve_left pending
      rw [wrapIfPending, if_neg pending] at result
      have last : screen.wrapIfWide width = some placed := result
      have turned : ¬(!screen.wrap) = true := by simp [wrap]
      rw [wrapIfWide, if_pos short, if_neg turned] at last
      exact (screen.carriage_room placed width fits whole uncut last).2.2
  · rw [if_neg wraps] at uncut
    have long : ¬screen.columnsValue - screen.cursorColumn < width := by
      rcases size with rfl | rfl
      · omega
      · have within := uncut.1 rfl
        omega
    by_cases pending : screen.wrapPending = true
    · have off : ¬screen.wrap = true := fun wrap => wraps ⟨wrap, Or.inl pending⟩
      rw [wrapIfPending, if_pos pending, if_neg off] at result
      have last : wrapIfWide { screen with wrapPending := false } width = some placed := result
      rw [wrapIfWide, if_neg long] at last
      rw [← Option.some.inj last]
      exact uncut
    · rw [wrapIfPending, if_neg pending] at result
      have last : screen.wrapIfWide width = some placed := result
      rw [wrapIfWide, if_neg long] at last
      rw [← Option.some.inj last]
      exact uncut

theorem insert_if_mode_whole (screen : TerminalScreen) (width : Int) (fits : screen.Fits) (whole : screen.Whole)
    (size : width = 1 ∨ width = 2) (room : screen.Room width) : AllWhole (screen.insertIfMode width) := by
  have column := fits.active.column
  have amount : min width (screen.columnsValue - screen.cursorColumn) = width := by
    rcases size with rfl | rfl
    · omega
    · have within := room.1 rfl
      omega
  unfold insertIfMode
  split
  · rename_i insert
    apply screen.insert_characters_whole width fits whole (by omega)
    rw [amount]
    exact room.2 insert
  · exact whole_some screen whole

theorem insert_if_mode_place (screen opened : TerminalScreen) (width : Int) (fits : screen.Fits)
    (result : screen.insertIfMode width = some opened) :
    opened.cursorColumn = screen.cursorColumn ∧ opened.columnsValue = screen.columnsValue := by
  unfold insertIfMode at result
  split at result
  · obtain ⟨edited, done, rfl⟩ := Option.map_eq_some_iff.mp result
    rw [screen.edit_line_eq _ _ fits fits.active.row] at done
    obtain ⟨line, -, rfl⟩ := Option.map_eq_some_iff.mp done
    exact ⟨rfl, rfl⟩
  · rw [Option.some.inj result]
    exact ⟨rfl, rfl⟩

theorem place_steps (screen : TerminalScreen) (width : Int) (cell : Cell) (fits : screen.Fits) :
    (screen.clearCell screen.cursorRow screen.cursorColumn >>= fun cleared =>
      cleared.setCell cleared.cursorRow cleared.cursorColumn cell >>= fun written => written.clearTrailing width) =
      screen.editLine screen.cursorRow (placeCharacter screen.columnsValue screen.cursorColumn width cell) := by
  have row := fits.active.row
  rw [clearCell, screen.edit_line_eq _ _ fits row, screen.edit_line_eq _ _ fits row, placeCharacter]
  cases clearLineCell screen.columnsValue screen.cursorColumn (screen.lineAt screen.cursorRow) with
  | none => rfl
  | some first =>
      have set := screen.edit_with_line screen.cursorRow first (fun line => setAt line screen.cursorColumn cell) fits row
      change ((screen.withLine screen.cursorRow first).editLine screen.cursorRow
        fun line => setAt line screen.cursorColumn cell) >>= _ = _
      rw [set]
      simp only [bind, Option.bind]
      cases setAt first screen.cursorColumn cell with
      | none => rfl
      | some second =>
          simp only [Option.map_some]
          change (if width = 2 ∧ screen.cursorColumn + 1 < screen.columnsValue then _ else _) = _
          by_cases double : width = 2 ∧ screen.cursorColumn + 1 < screen.columnsValue
          · rw [if_pos double, if_pos double]
            have clear := screen.edit_with_line screen.cursorRow second
              (clearLineCell screen.columnsValue (screen.cursorColumn + 1)) fits row
            change ((screen.withLine screen.cursorRow second).editLine screen.cursorRow
              (clearLineCell screen.columnsValue (screen.cursorColumn + 1))) >>= _ = _
            rw [clear]
            cases clearLineCell screen.columnsValue (screen.cursorColumn + 1) second with
            | none => rfl
            | some third =>
                exact screen.edit_with_line screen.cursorRow third (fun line => setAt line (screen.cursorColumn + 1) []) fits row
          · rw [if_neg double, if_neg double]
            rfl

theorem advance_whole (screen : TerminalScreen) (width : Int) (whole : screen.Whole) : (screen.advance width).Whole := by
  unfold advance
  dsimp only
  split <;> exact ⟨whole.active, whole.saved⟩

theorem placing_whole (screen : TerminalScreen) (character : Nat) (fits : screen.Fits) (whole : screen.Whole)
    (room : codePointWidth character = 2 → screen.cursorColumn + 1 < screen.columnsValue) :
    AllWhole (screen.clearCell screen.cursorRow screen.cursorColumn >>= fun cleared =>
      cleared.setCell cleared.cursorRow cleared.cursorColumn [character] >>= fun written =>
        written.clearTrailing (codePointWidth character) >>= fun trailed => some (trailed.advance (codePointWidth character))) := by
  intro next result
  obtain ⟨cleared, first, result⟩ := Option.bind_eq_some_iff.mp result
  obtain ⟨written, second, result⟩ := Option.bind_eq_some_iff.mp result
  obtain ⟨trailed, third, result⟩ := Option.bind_eq_some_iff.mp result
  have steps := screen.place_steps (codePointWidth character) [character] fits
  rw [first] at steps
  change (cleared.setCell cleared.cursorRow cleared.cursorColumn [character] >>= _) = _ at steps
  rw [second] at steps
  change written.clearTrailing (codePointWidth character) = _ at steps
  rw [third] at steps
  rw [← Option.some.inj result]
  apply advance_whole
  refine screen.edit_whole screen.cursorRow _ fits fits.active.row whole ?_ trailed steps.symm
  intro edited wholeLine width placed
  exact place_whole _ _ _ [character] _ edited wholeLine width fits.active.column (List.cons_ne_nil _ _)
    (wide_single character) room placed

theorem write_character_whole (screen : TerminalScreen) (character : Nat) (fits : screen.Fits) (whole : screen.Whole)
    (uncut : screen.UncutWrite character) : AllWhole (screen.writeCharacter character) := by
  have positive := width_positive character
  unfold writeCharacter
  dsimp only
  split
  · rename_i mark
    exact screen.combine_whole character mark fits whole
  · rename_i visible
    have size := (width_cases character).resolve_left visible
    have fitting := uncut.resolve_left visible
    intro next result
    obtain ⟨wrapped, first, result⟩ := Option.bind_eq_some_iff.mp result
    obtain ⟨placed, second, result⟩ := Option.bind_eq_some_iff.mp result
    obtain ⟨opened, third, result⟩ := Option.bind_eq_some_iff.mp result
    have both : (screen.wrapIfPending >>= fun wrapped => wrapped.wrapIfWide (codePointWidth character)) = some placed := by
      rw [first]
      exact second
    have room := screen.placed_room placed _ fits whole size fitting both
    have fitsWrapped := safe_fits _ wrapped (screen.wrap_if_pending_safe fits) first
    have wholeWrapped := screen.wrap_pending_whole whole wrapped first
    have fitsPlaced := safe_fits _ placed (wrapped.wrap_if_wide_safe _ fitsWrapped) second
    have wholePlaced := wrapped.wrap_wide_whole _ wholeWrapped placed second
    have fitsOpened := safe_fits _ opened (placed.insert_if_mode_safe _ fitsPlaced positive) third
    have wholeOpened := placed.insert_if_mode_whole _ fitsPlaced wholePlaced size room opened third
    obtain ⟨column, columns⟩ := placed.insert_if_mode_place opened _ fitsPlaced third
    refine opened.placing_whole character fitsOpened wholeOpened ?_ next result
    intro double
    rw [column, columns]
    exact room.1 double

theorem own_grid_whole (screen : TerminalScreen) (change : List Line → TerminalScreen) (whole : screen.Whole)
    (lines : ∀ fresh, (change fresh).lines = fresh)
    (saved : ∀ fresh, ∀ primary ∈ (change fresh).primary, primary.lines = screen.lines) :
    AllWhole ((makeGrid screen.rowsValue screen.columnsValue).map change) := by
  intro next result
  obtain ⟨fresh, made, rfl⟩ := Option.map_eq_some_iff.mp result
  refine ⟨fun line member => ?_, fun primary found line member => ?_⟩
  · rw [lines] at member
    exact grid_whole _ _ fresh made line member
  · rw [saved fresh primary found] at member
    exact whole.active line member

theorem reset_whole (screen : TerminalScreen) (whole : screen.Whole) : AllWhole screen.reset :=
  screen.own_grid_whole _ whole (fun _ => rfl) (fun _ _ none => nomatch none)

theorem lost_output_whole (screen : TerminalScreen) (whole : screen.Whole) : AllWhole screen.lostOutput :=
  screen.own_grid_whole _ whole (fun _ => rfl) (fun _ _ none => nomatch none)

theorem enter_alternate_whole (screen : TerminalScreen) (whole : screen.Whole) : AllWhole screen.enterAlternateScreen := by
  unfold enterAlternateScreen
  split
  · exact whole_some screen whole
  · refine screen.own_grid_whole _ whole (fun _ => rfl) fun fresh primary found => ?_
    rw [← Option.some.inj found]

theorem leave_alternate_whole (screen : TerminalScreen) (whole : screen.Whole) : screen.leaveAlternateScreen.Whole := by
  unfold leaveAlternateScreen
  split
  · exact whole
  · rename_i primary saved
    exact ⟨whole.saved primary saved, fun _ none => nomatch none⟩

theorem set_private_mode_whole (screen : TerminalScreen) (enabled : Bool) (mode : Int) (whole : screen.Whole) :
    AllWhole (screen.setPrivateMode enabled mode) := by
  unfold setPrivateMode
  split
  · exact whole_some _ ⟨whole.active, whole.saved⟩
  split
  · exact whole_some _ ⟨whole.active, whole.saved⟩
  split
  · have set : Whole { screen with originMode := enabled } := ⟨whole.active, whole.saved⟩
    exact whole_some _ (move_whole _ _ _ set)
  split
  · split
    · exact screen.enter_alternate_whole whole
    · exact whole_some _ (screen.leave_alternate_whole whole)
  · exact whole_some screen whole

theorem private_modes_whole (modes : List Int) (enabled : Bool) (screen : TerminalScreen) (fits : screen.Fits)
    (whole : screen.Whole) : AllWhole (modes.foldlM (fun screen mode => screen.setPrivateMode enabled mode) screen) := by
  induction modes generalizing screen with
  | nil => exact whole_some screen whole
  | cons mode rest ih =>
      rw [List.foldlM_cons]
      exact whole_bind _ _ (screen.set_private_mode_safe enabled mode fits) (screen.set_private_mode_whole enabled mode whole)
        fun next fitsNext wholeNext => ih next fitsNext wholeNext

theorem set_modes_whole (modes : List Int) (enabled : Bool) (screen : TerminalScreen) (whole : screen.Whole) :
    (modes.foldl (fun screen mode => screen.setMode enabled mode) screen).Whole := by
  induction modes generalizing screen with
  | nil => exact whole
  | cons mode rest ih =>
      have set : (screen.setMode enabled mode).Whole := by
        unfold setMode
        split <;> exact ⟨whole.active, whole.saved⟩
      exact ih _ set

theorem set_scroll_region_whole (screen : TerminalScreen) (params : List Int) (whole : screen.Whole) :
    (screen.setScrollRegion params).Whole := by
  unfold setScrollRegion
  dsimp only
  split
  · exact move_whole _ _ _ ⟨whole.active, whole.saved⟩
  · exact whole

theorem respond_whole (screen : TerminalScreen) (response : String) (whole : screen.Whole) : (screen.respond response).Whole :=
  ⟨whole.active, whole.saved⟩

theorem device_status_whole (screen : TerminalScreen) (privateMode : Bool) (request : Int) (whole : screen.Whole) :
    (screen.deviceStatusReport privateMode request).Whole := by
  unfold deviceStatusReport
  split
  · exact screen.respond_whole _ whole
  split
  · exact whole
  · exact screen.respond_whole _ whole

theorem execute_csi_whole (screen : TerminalScreen) (final : Char) (raw : List Nat) (fits : screen.Fits) (whole : screen.Whole)
    (uncut : screen.UncutCsi final (paramsOf raw)) : AllWhole (screen.executeCsi final raw) := by
  have count : 1 ≤ countOf (paramsOf raw) := le_max_left _ _
  have move : ∀ row column, AllWhole (some (screen.moveCursor row column)) :=
    fun row column => whole_some _ (screen.move_whole row column whole)
  have modes : ∀ enabled : Bool, AllWhole (if startsWith raw '?' then
        (paramsOf raw).foldlM (fun screen mode => screen.setPrivateMode enabled mode) screen
      else some ((paramsOf raw).foldl (fun screen mode => screen.setMode enabled mode) screen)) := by
    intro enabled
    split
    · exact private_modes_whole _ enabled screen fits whole
    · exact whole_some _ (set_modes_whole _ enabled screen whole)
  have report : AllWhole (some (if param (paramsOf raw) 0 = 18 then
      screen.respond s!"\x1b[8;{screen.rowsValue};{screen.columnsValue}t" else screen)) := by
    split
    · exact whole_some _ (screen.respond_whole _ whole)
    · exact whole_some screen whole
  unfold executeCsi
  dsimp only
  split
  case h_1 | h_2 | h_3 | h_4 | h_5 | h_6 | h_7 | h_8 | h_9 | h_10 => exact move _ _
  case h_11 | h_12 | h_13 => exact whole_some _ (screen.move_whole _ _ whole)
  case h_14 => exact screen.erase_display_whole _ fits whole uncut
  case h_15 => exact screen.erase_line_whole _ fits whole uncut
  case h_16 => exact screen.insert_lines_whole _ whole
  case h_17 => exact screen.delete_lines_whole _ whole
  case h_18 => exact screen.insert_characters_whole _ fits whole (by omega) uncut.1
  case h_19 => exact screen.delete_characters_whole _ fits whole (by omega) (uncut.2 rfl)
  case h_20 => exact screen.erase_characters_whole _ fits whole uncut
  case h_21 => exact screen.scroll_up_whole _ whole
  case h_22 => exact screen.scroll_down_whole _ whole
  case h_23 => exact whole_some _ (screen.set_scroll_region_whole _ whole)
  case h_24 => exact whole_some _ ⟨whole.active, whole.saved⟩
  case h_25 => exact whole_some _ (screen.move_whole _ _ whole)
  case h_26 | h_27 => exact modes _
  case h_28 => exact whole_some _ ⟨whole.active, whole.saved⟩
  case h_29 => exact whole_some _ (screen.device_status_whole _ _ whole)
  case h_30 => exact whole_some _ (screen.respond_whole _ whole)
  case h_31 => exact report
  case h_32 => exact whole_some screen whole

theorem consume_ground_whole (screen : TerminalScreen) (code : Nat) (fits : screen.Fits) (whole : screen.Whole)
    (uncut : 0x20 ≤ code → screen.UncutWrite (screen.translateCharacter code)) : AllWhole (screen.consumeGround code) := by
  have move : ∀ row column, AllWhole (some (screen.moveCursor row column)) :=
    fun row column => whole_some _ (screen.move_whole row column whole)
  unfold consumeGround
  split
  · exact whole_some _ ⟨whole.active, whole.saved⟩
  split
  · exact move _ _
  split
  · exact screen.line_feed_whole whole
  split
  · exact move _ _
  split
  · exact move _ _
  split
  · exact whole_some _ ⟨whole.active, whole.saved⟩
  split
  · exact whole_some _ ⟨whole.active, whole.saved⟩
  split
  · exact whole_some screen whole
  · rename_i printed
    exact screen.write_character_whole _ fits whole (uncut (by omega))

theorem escaped_whole (screen : TerminalScreen) (code : Nat) (whole : screen.Whole) : AllWhole (screen.escaped code) := by
  unfold escaped
  split
  case h_1 | h_2 | h_3 | h_4 | h_5 | h_6 | h_7 | h_8 | h_9 | h_10 | h_11 | h_12 | h_13 | h_14 =>
    exact whole_some _ ⟨whole.active, whole.saved⟩
  case h_15 => exact whole_some _ (screen.move_whole _ _ whole)
  case h_16 => exact screen.line_feed_whole whole
  case h_17 => exact whole_map _ _ (screen.line_feed_whole whole) fun fed wholeFed => fed.move_whole _ _ wholeFed
  case h_18 => exact screen.reverse_index_whole whole
  case h_19 => exact screen.reset_whole whole
  case h_20 => exact whole_some screen whole

theorem consume_csi_whole (screen : TerminalScreen) (code : Nat) (fits : screen.Fits) (whole : screen.Whole)
    (uncut : 0x40 ≤ code ∧ code ≤ 0x7e → screen.UncutCsi (Char.ofNat code) (paramsOf screen.control)) :
    AllWhole (screen.consumeCsi code) := by
  unfold consumeCsi
  split
  · rename_i final
    exact whole_map _ _ (screen.execute_csi_whole _ _ fits whole (uncut final)) fun _ executed => ⟨executed.active, executed.saved⟩
  split
  · exact whole_some _ ⟨whole.active, whole.saved⟩
  · exact whole_some screen whole

theorem consume_whole (screen : TerminalScreen) (code : Nat) (fits : screen.Fits) (whole : screen.Whole)
    (uncut : screen.Uncut code) : AllWhole (screen.consume code) := by
  cases state : screen.parserState with
  | ground =>
      rw [consume, state]
      exact screen.consume_ground_whole code fits whole (uncut.1 state)
  | escape =>
      rw [consume, state]
      exact escaped_whole _ code ⟨whole.active, whole.saved⟩
  | escapeIntermediate =>
      rw [consume, state]
      exact whole_some _ ⟨whole.active, whole.saved⟩
  | csi =>
      rw [consume, state]
      exact screen.consume_csi_whole code fits whole (uncut.2 state)
  | osc =>
      rw [consume, state]
      dsimp only
      split
      · exact whole_some _ ⟨whole.active, whole.saved⟩
      split
      · exact whole_some _ ⟨whole.active, whole.saved⟩
      · exact whole_some screen whole
  | oscEscape =>
      rw [consume, state]
      exact whole_some _ ⟨whole.active, whole.saved⟩

theorem resized_whole (lines resized : List Line) (columns rows : Int) (low : 0 ≤ columns)
    (whole : ∀ line ∈ lines, WholeLine line) (clean : ∀ line ∈ lines.take rows.toNat, ¬MidCharacter line columns)
    (result : resizeGrid lines columns rows = some resized) : ∀ line ∈ resized, WholeLine line := by
  obtain ⟨fresh, made, rfl⟩ := Option.map_eq_some_iff.mp result
  intro line member
  rcases List.mem_append.mp member with copied | blank
  · obtain ⟨source, kept, rfl⟩ := List.mem_map.mp copied
    exact copy_line_whole columns source (whole source (List.mem_of_mem_take kept)) low (clean source kept)
  · exact grid_whole _ _ fresh made line (List.mem_of_mem_drop blank)

theorem resize_whole (screen : TerminalScreen) (columns rows : Int) (wide : 2 ≤ columns) (whole : screen.Whole)
    (uncut : screen.UncutResize columns rows) : AllWhole (screen.resize columns rows) := by
  unfold resize
  split
  · exact whole_some screen whole
  · intro next result
    obtain ⟨lines, copied, result⟩ := Option.bind_eq_some_iff.mp result
    obtain ⟨primary, resized, result⟩ := Option.bind_eq_some_iff.mp result
    rw [← Option.some.inj result]
    refine ⟨resized_whole _ lines columns rows (by omega) whole.active uncut.1 copied, fun kept found => ?_⟩
    cases saved : screen.primary with
    | none =>
        rw [saved] at resized
        have same : primary = none := (Option.some.inj resized).symm
        rw [same] at found
        exact nomatch found
    | some primary =>
        rw [saved] at resized
        obtain ⟨others, copiedToo, rfl⟩ := Option.map_eq_some_iff.mp resized
        rw [← Option.some.inj found]
        exact resized_whole _ others columns rows (by omega) (whole.saved primary saved) (uncut.2 primary saved) copiedToo

theorem consumed_whole (text : List Nat) (screen : TerminalScreen) (fits : screen.Fits) (whole : screen.Whole)
    (uncut : AlongSome consume Uncut screen text) : AllWhole (text.foldlM consume screen) := by
  induction text generalizing screen with
  | nil => exact whole_some screen whole
  | cons code rest ih =>
      rw [List.foldlM_cons]
      obtain ⟨next, reached, fitsNext⟩ := screen.consume_safe code fits
      have wholeNext := screen.consume_whole code fits whole uncut.1 next reached
      rw [reached]
      exact ih next fitsNext wholeNext (along_some_next consume Uncut screen next code rest uncut reached)

end TerminalScreen

-- No step of the call cuts a character in two.
def ScreenCall.Uncut (screen : TerminalScreen) : ScreenCall → Prop
  | .feed text => AlongSome TerminalScreen.consume TerminalScreen.Uncut { screen with dirty := false } text
  | .resize columns rows => screen.UncutResize columns rows
  | .lostOutput => True

instance (screen : TerminalScreen) : (call : ScreenCall) → Decidable (call.Uncut screen)
  | .feed _ => inferInstanceAs (Decidable (AlongSome _ _ _ _))
  | .resize _ _ => inferInstanceAs (Decidable (_ ∧ _))
  | .lostOutput => isTrue trivial

theorem perform_whole (screen : TerminalScreen) (call : ScreenCall) (sized : call.Sized) (fits : screen.Fits)
    (whole : screen.Whole) (uncut : call.Uncut screen) : TerminalScreen.AllWhole (screen.perform call) := by
  cases call with
  | feed text =>
      have fitsStart : TerminalScreen.Fits { screen with dirty := false } := ⟨fits.columns, fits.rows, fits.active, fits.saved⟩
      exact TerminalScreen.whole_map _ _ (TerminalScreen.consumed_whole text _ fitsStart ⟨whole.active, whole.saved⟩ uncut)
        fun _ fed => ⟨fed.active, fed.saved⟩
  | resize columns rows => exact screen.resize_whole columns rows sized.1 whole uncut
  | lostOutput => exact screen.lost_output_whole whole

theorem calls_whole (calls : List ScreenCall) (screen : TerminalScreen) (sized : ∀ call ∈ calls, call.Sized)
    (fits : screen.Fits) (whole : screen.Whole)
    (uncut : AlongSome TerminalScreen.perform (fun screen call => call.Uncut screen) screen calls) :
    ∃ last, calls.foldlM TerminalScreen.perform screen = some last ∧ last.Whole := by
  induction calls generalizing screen with
  | nil => exact ⟨screen, rfl, whole⟩
  | cons call rest ih =>
      have sizedCall := sized call List.mem_cons_self
      obtain ⟨next, reached, fitsNext⟩ := perform_safe screen call fits sizedCall
      have wholeNext := perform_whole screen call sizedCall fits whole uncut.1 next reached
      have later := along_some_next _ (fun screen call => ScreenCall.Uncut screen call) screen next call rest uncut reached
      rw [List.foldlM_cons, reached]
      exact ih next (fun other member => sized other (List.mem_cons_of_mem _ member)) fitsNext wholeNext later

theorem create_whole (columns rows : Int) (screen : TerminalScreen) (created : TerminalScreen.create columns rows = some screen) :
    screen.Whole := by
  obtain ⟨lines, made, rfl⟩ := Option.map_eq_some_iff.mp created
  exact ⟨TerminalScreen.grid_whole rows columns lines made, fun _ none => nomatch none⟩

-- A run in which no edit and no new size cuts a character leaves every character whole.
theorem characters_stay_whole (columns rows : Int) (wide : 2 ≤ columns) (high : 1 ≤ rows) (calls : List ScreenCall)
    (sized : ∀ call ∈ calls, call.Sized)
    (uncut : ∀ fresh, TerminalScreen.create columns rows = some fresh →
      AlongSome TerminalScreen.perform (fun screen call => call.Uncut screen) fresh calls) :
    ∃ screen, (TerminalScreen.create columns rows >>= fun fresh => calls.foldlM TerminalScreen.perform fresh) = some screen ∧
      screen.Whole := by
  obtain ⟨fresh, created, fits⟩ := TerminalScreen.create_safe columns rows wide high
  rw [created]
  exact calls_whole calls fresh sized fits (create_whole columns rows fresh created) (uncut fresh created)

-- A letter written over the second half of one, a wide character that wraps, and a smaller screen.
theorem characters_stay_whole_overwritten :
    ∃ screen, (TerminalScreen.create 5 2 >>= fun fresh =>
      ([.feed [0x4e2d, 0x6587, 0x1b, 0x5b, 0x32, 0x47, 0x61, 0x1b, 0x5b, 0x35, 0x47, 0x4e2d], .resize 4 2] :
        List ScreenCall).foldlM TerminalScreen.perform fresh) = some screen ∧ screen.Whole := by
  refine characters_stay_whole 5 2 (by decide) (by decide) _ ?_ ?_
  · intro call member
    simp only [List.mem_cons, List.not_mem_nil, or_false] at member
    rcases member with rfl | rfl
    · trivial
    · exact ⟨by decide, by decide⟩
  · intro fresh created
    rw [← Option.some.inj created]
    decide

-- Erasing to the end of the line from the second half of a character leaves the first half.
theorem erasing_halves :
    ∃ screen, (TerminalScreen.create 4 1 >>= fun fresh =>
      ([.feed [0x4e2d, 0x1b, 0x5b, 0x32, 0x47, 0x1b, 0x5b, 0x4b]] : List ScreenCall).foldlM TerminalScreen.perform fresh) =
        some screen ∧ ¬screen.Whole := by
  have reached : ((TerminalScreen.create 4 1 >>= fun fresh =>
      ([.feed [0x4e2d, 0x1b, 0x5b, 0x32, 0x47, 0x1b, 0x5b, 0x4b]] : List ScreenCall).foldlM TerminalScreen.perform fresh).map
        fun screen => screen.lines) = some [[[0x4e2d], space, space, space]] := by decide
  obtain ⟨screen, found, lines⟩ := Option.map_eq_some_iff.mp reached
  refine ⟨screen, found, fun whole => ?_⟩
  have line := whole.active [[0x4e2d], space, space, space] (by rw [lines]; exact List.mem_singleton_self _)
  obtain ⟨after, second, closed⟩ := line.followed 0 [0x4e2d] rfl (by decide)
  rw [← Option.some.inj second] at closed
  exact absurd closed (by decide)

end Vacps.Terminal
