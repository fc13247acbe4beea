import Vacps.Contracts.CronNext
import Vacps.Library.JsArray

/- runtime/terminal-screen.ts: the screen model of a terminal session. Characters are code points, a
   cell is the text it shows, and a step that would reach outside an array or build one of negative
   length is none. -/
set_option autoImplicit false

namespace Vacps.Terminal

open Library.JsArray

abbrev Cell : Type := List Nat

abbrev Line : Type := List Cell

def space : Cell := [32]

inductive ParserState where
  | ground
  | escape
  | escapeIntermediate
  | csi
  | osc
  | oscEscape
deriving DecidableEq, Repr

inductive Charset where
  | ascii
  | dec
deriving DecidableEq, Repr

-- The graphic for each character from the grave accent to the tilde.
def decSpecialGraphics : List (Nat × Nat) :=
  (List.range' 96 31).zip ("◆▒␉␌␍␊°±␤␋┘┐┌└┼⎺⎻─⎼⎽├┤┴┬│≤≥π≠£·".toList.map Char.toNat)

structure SavedPrimary where
  lines : List Line
  cursorRow : Int
  cursorColumn : Int
  scrollTop : Int
  scrollBottom : Int
  wrap : Bool
  originMode : Bool
deriving DecidableEq, Repr

structure TerminalScreen where
  columnsValue : Int
  rowsValue : Int
  lines : List Line
  cursorRow : Int := 0
  cursorColumn : Int := 0
  savedCursorRow : Int := 0
  savedCursorColumn : Int := 0
  scrollTop : Int := 0
  scrollBottom : Int
  wrap : Bool := true
  wrapPending : Bool := false
  originMode : Bool := false
  insertMode : Bool := false
  applicationCursorKeys : Bool := false
  applicationCursorKeysKnown : Bool := true
  g0Charset : Charset := .ascii
  g1Charset : Charset := .ascii
  activeCharset : Nat := 0
  tabStops : List Int
  parserState : ParserState := .ground
  control : List Nat := []
  escapeIntermediate : Option Nat := none
  primary : Option SavedPrimary := none
  responses : List String := []
  dirty : Bool := false
  generationValue : Nat := 0
  droppedValue : Bool := false
deriving DecidableEq, Repr

def clamp (value minimum maximum : Int) : Int := max minimum (min maximum value)

def makeGrid (rows columns : Int) : Option (List Line) :=
  if rows ≤ 0 then some [] else (newArray columns space).map fun line => List.replicate rows.toNat line

def defaultTabStops (columns : Int) : List Int :=
  (List.range (columns.toNat / 8 + 1)).filterMap fun k =>
    if 0 < k ∧ (8 * k : Int) < columns then some (8 * k) else none

def copyLine (columns : Int) (source : Line) : Line :=
  source.take columns.toNat ++ List.replicate (columns.toNat - source.length) space

def resizeGrid (lines : List Line) (columns rows : Int) : Option (List Line) :=
  (makeGrid rows columns).map fun result =>
    (lines.take rows.toNat).map (copyLine columns) ++ result.drop (min rows.toNat lines.length)

def codePointWidth (code : Nat) : Int :=
  if code = 0x200d ∨ (0x0300 ≤ code ∧ code ≤ 0x036f) ∨ (0x1ab0 ≤ code ∧ code ≤ 0x1aff) ∨
      (0x1dc0 ≤ code ∧ code ≤ 0x1dff) ∨ (0x20d0 ≤ code ∧ code ≤ 0x20ff) ∨ (0xfe00 ≤ code ∧ code ≤ 0xfe0f) ∨
      (0xfe20 ≤ code ∧ code ≤ 0xfe2f) then 0
  else if 0x1100 ≤ code ∧ (code ≤ 0x115f ∨ code = 0x2329 ∨ code = 0x232a ∨
      (0x2e80 ≤ code ∧ code ≤ 0xa4cf ∧ code ≠ 0x303f) ∨ (0xac00 ≤ code ∧ code ≤ 0xd7a3) ∨
      (0xf900 ≤ code ∧ code ≤ 0xfaff) ∨ (0xfe10 ≤ code ∧ code ≤ 0xfe19) ∨ (0xfe30 ≤ code ∧ code ≤ 0xfe6f) ∨
      (0xff00 ≤ code ∧ code ≤ 0xff60) ∨ (0xffe0 ≤ code ∧ code ≤ 0xffe6) ∨ (0x1f300 ≤ code ∧ code ≤ 0x1faff) ∨
      (0x20000 ≤ code ∧ code ≤ 0x3fffd)) then 2
  else 1

namespace TerminalScreen

-- new TerminalScreen(columns, rows)
def create (columns rows : Int) : Option TerminalScreen :=
  (makeGrid rows columns).map fun lines =>
    { columnsValue := columns, rowsValue := rows, lines := lines, scrollBottom := rows - 1,
      tabStops := defaultTabStops columns }

def resizePrimary (primary : Option SavedPrimary) (columns rows : Int) : Option (Option SavedPrimary) :=
  match primary with
  | none => some none
  | some saved =>
      (resizeGrid saved.lines columns rows).map fun lines =>
        some { saved with
          lines := lines
          cursorRow := clamp saved.cursorRow 0 (rows - 1)
          cursorColumn := clamp saved.cursorColumn 0 (columns - 1)
          scrollTop := 0
          scrollBottom := rows - 1 }

def resize (screen : TerminalScreen) (columns rows : Int) : Option TerminalScreen :=
  if columns = screen.columnsValue ∧ rows = screen.rowsValue then some screen
  else do
    let lines ← resizeGrid screen.lines columns rows
    let primary ← resizePrimary screen.primary columns rows
    some { screen with
      lines := lines
      primary := primary
      columnsValue := columns
      rowsValue := rows
      cursorRow := clamp screen.cursorRow 0 (rows - 1)
      cursorColumn := clamp screen.cursorColumn 0 (columns - 1)
      scrollTop := 0
      scrollBottom := rows - 1
      wrapPending := false
      tabStops := defaultTabStops columns
      generationValue := screen.generationValue + 1 }

def lostOutput (screen : TerminalScreen) : Option TerminalScreen :=
  (makeGrid screen.rowsValue screen.columnsValue).map fun lines =>
    { screen with
      lines := lines
      cursorRow := 0
      cursorColumn := 0
      scrollTop := 0
      scrollBottom := screen.rowsValue - 1
      wrap := true
      wrapPending := false
      originMode := false
      insertMode := false
      parserState := .ground
      control := []
      escapeIntermediate := none
      primary := none
      g0Charset := .ascii
      g1Charset := .ascii
      activeCharset := 0
      tabStops := defaultTabStops screen.columnsValue
      applicationCursorKeysKnown := false
      droppedValue := true
      generationValue := screen.generationValue + 1 }

def reset (screen : TerminalScreen) : Option TerminalScreen :=
  (makeGrid screen.rowsValue screen.columnsValue).map fun lines =>
    { screen with
      lines := lines
      cursorRow := 0
      cursorColumn := 0
      savedCursorRow := 0
      savedCursorColumn := 0
      scrollTop := 0
      scrollBottom := screen.rowsValue - 1
      wrap := true
      wrapPending := false
      originMode := false
      insertMode := false
      applicationCursorKeys := false
      applicationCursorKeysKnown := true
      primary := none
      g0Charset := .ascii
      g1Charset := .ascii
      activeCharset := 0
      tabStops := defaultTabStops screen.columnsValue
      dirty := true }

def enterAlternateScreen (screen : TerminalScreen) : Option TerminalScreen :=
  match screen.primary with
  | some _ => some screen
  | none =>
      (makeGrid screen.rowsValue screen.columnsValue).map fun lines =>
        { screen with
          primary := some
            { lines := screen.lines
              cursorRow := screen.cursorRow
              cursorColumn := screen.cursorColumn
              scrollTop := screen.scrollTop
              scrollBottom := screen.scrollBottom
              wrap := screen.wrap
              originMode := screen.originMode }
          lines := lines
          cursorRow := 0
          cursorColumn := 0
          scrollTop := 0
          scrollBottom := screen.rowsValue - 1
          wrapPending := false
          dirty := true }

def leaveAlternateScreen (screen : TerminalScreen) : TerminalScreen :=
  match screen.primary with
  | none => screen
  | some saved =>
      { screen with
        lines := saved.lines
        cursorRow := saved.cursorRow
        cursorColumn := saved.cursorColumn
        scrollTop := saved.scrollTop
        scrollBottom := saved.scrollBottom
        wrap := saved.wrap
        originMode := saved.originMode
        wrapPending := false
        primary := none
        dirty := true }

-- In origin mode the cursor stays between the margins.
def clampRow (screen : TerminalScreen) (row : Int) : Int :=
  let minimumRow := if screen.originMode then screen.scrollTop else 0
  let maximumRow := if screen.originMode then screen.scrollBottom else screen.rowsValue - 1
  clamp row minimumRow maximumRow

def moveCursor (screen : TerminalScreen) (row column : Int) : TerminalScreen :=
  let nextRow := screen.clampRow row
  let nextColumn := clamp column 0 (screen.columnsValue - 1)
  if nextRow ≠ screen.cursorRow ∨ nextColumn ≠ screen.cursorColumn then
    { screen with wrapPending := false, cursorRow := nextRow, cursorColumn := nextColumn, dirty := true }
  else { screen with wrapPending := false }

def moveCursorAddress (screen : TerminalScreen) (row column : Int) : TerminalScreen :=
  screen.moveCursor (if screen.originMode then screen.scrollTop + row else row) column

def nextTabStop (screen : TerminalScreen) : Int :=
  match ((List.range (screen.columnsValue - (screen.cursorColumn + 1)).toNat).map fun (k : Nat) =>
      screen.cursorColumn + 1 + k).find? fun column => screen.tabStops.contains column with
  | some column => column
  | none => screen.columnsValue - 1

def translateCharacter (screen : TerminalScreen) (character : Nat) : Nat :=
  let charset := if screen.activeCharset = 0 then screen.g0Charset else screen.g1Charset
  match charset with
  | .dec => (decSpecialGraphics.lookup character).getD character
  | .ascii => character

def scrollUp (screen : TerminalScreen) (count : Int) : Option TerminalScreen :=
  let amount := min count (screen.scrollBottom - screen.scrollTop + 1)
  (makeGrid amount screen.columnsValue).map fun blank =>
    { screen with
      lines := splice (splice screen.lines screen.scrollTop amount []) (screen.scrollBottom - amount + 1) 0 blank
      dirty := true }

def scrollDown (screen : TerminalScreen) (count : Int) : Option TerminalScreen :=
  let amount := min count (screen.scrollBottom - screen.scrollTop + 1)
  (makeGrid amount screen.columnsValue).map fun blank =>
    { screen with
      lines := splice (splice screen.lines (screen.scrollBottom - amount + 1) amount []) screen.scrollTop 0 blank
      dirty := true }

def insertLines (screen : TerminalScreen) (count : Int) : Option TerminalScreen :=
  if screen.cursorRow < screen.scrollTop ∨ screen.scrollBottom < screen.cursorRow then some screen
  else
    let amount := min count (screen.scrollBottom - screen.cursorRow + 1)
    (makeGrid amount screen.columnsValue).map fun blank =>
      { screen with
        lines := splice (splice screen.lines screen.cursorRow 0 blank) (screen.scrollBottom + 1) amount []
        dirty := true }

def deleteLines (screen : TerminalScreen) (count : Int) : Option TerminalScreen :=
  if screen.cursorRow < screen.scrollTop ∨ screen.scrollBottom < screen.cursorRow then some screen
  else
    let amount := min count (screen.scrollBottom - screen.cursorRow + 1)
    (makeGrid amount screen.columnsValue).map fun blank =>
      { screen with
        lines := splice (splice screen.lines screen.cursorRow amount []) (screen.scrollBottom - amount + 1) 0 blank
        dirty := true }

def lineFeed (screen : TerminalScreen) : Option TerminalScreen :=
  if screen.cursorRow = screen.scrollBottom then screen.scrollUp 1
  else some (screen.moveCursor (min (screen.rowsValue - 1) (screen.cursorRow + 1)) screen.cursorColumn)

def reverseIndex (screen : TerminalScreen) : Option TerminalScreen :=
  if screen.cursorRow = screen.scrollTop then screen.scrollDown 1
  else some (screen.moveCursor (max 0 (screen.cursorRow - 1)) screen.cursorColumn)

-- this.lines[row]! and what is then done to that line.
def editLine (screen : TerminalScreen) (row : Int) (edit : Line → Option Line) : Option TerminalScreen := do
  let line ← at? screen.lines row
  let edited ← edit line
  let lines ← setAt screen.lines row edited
  some { screen with lines := lines }

def markDirty (screen : TerminalScreen) : TerminalScreen := { screen with dirty := true }

-- lines[row].fill(' ') for the rows from first up to stop.
def fillRows (screen : TerminalScreen) (first : Int) : Nat → Option TerminalScreen
  | 0 => some screen
  | n + 1 => do
      let filled ← screen.editLine first fun line => some (fill line space 0 line.length)
      filled.fillRows (first + 1) n

def eraseDisplay (screen : TerminalScreen) (mode : Int) : Option TerminalScreen :=
  if mode = 2 ∨ mode = 3 then
    (makeGrid screen.rowsValue screen.columnsValue).map fun lines => { screen with lines := lines, dirty := true }
  else if mode = 1 then do
    let above ← screen.fillRows 0 screen.cursorRow.toNat
    let erased ← above.editLine screen.cursorRow fun line => some (fill line space 0 (screen.cursorColumn + 1))
    some erased.markDirty
  else do
    let here ← screen.editLine screen.cursorRow fun line => some (fill line space screen.cursorColumn line.length)
    let erased ← here.fillRows (screen.cursorRow + 1) (screen.rowsValue - (screen.cursorRow + 1)).toNat
    some erased.markDirty

def eraseLine (screen : TerminalScreen) (mode : Int) : Option TerminalScreen :=
  (screen.editLine screen.cursorRow fun line =>
    some (if mode = 1 then fill line space 0 (screen.cursorColumn + 1)
      else if mode = 2 then fill line space 0 line.length
      else fill line space screen.cursorColumn line.length)).map markDirty

def insertBlanks (columns column amount : Int) (line : Line) : Option Line := do
  let blank ← newArray amount space
  setLength (splice line column 0 blank) columns

def insertCharacters (screen : TerminalScreen) (count : Int) : Option TerminalScreen :=
  let amount := min count (screen.columnsValue - screen.cursorColumn)
  (screen.editLine screen.cursorRow (insertBlanks screen.columnsValue screen.cursorColumn amount)).map markDirty

def deleteCells (column amount : Int) (line : Line) : Option Line := do
  let blank ← newArray amount space
  some (splice line column amount [] ++ blank)

def deleteCharacters (screen : TerminalScreen) (count : Int) : Option TerminalScreen :=
  let amount := min count (screen.columnsValue - screen.cursorColumn)
  (screen.editLine screen.cursorRow (deleteCells screen.cursorColumn amount)).map markDirty

def eraseCharacters (screen : TerminalScreen) (count : Int) : Option TerminalScreen :=
  (screen.editLine screen.cursorRow fun line =>
    some (fill line space screen.cursorColumn (min screen.columnsValue (screen.cursorColumn + count)))).map markDirty

def clearBefore (column : Int) (line : Line) : Option Line := do
  let cell ← at? line column
  if cell = [] ∧ 0 < column then setAt line (column - 1) space else some line

def clearAfter (columns column : Int) (line : Line) : Option Line := do
  let cell ← at? line column
  if cell ≠ [] ∧ column + 1 < columns then do
    let next ← at? line (column + 1)
    if next = [] then setAt line (column + 1) space else some line
  else some line

def clearLineCell (columns column : Int) (line : Line) : Option Line := do
  let line ← clearBefore column line
  let line ← clearAfter columns column line
  setAt line column space

def clearCell (screen : TerminalScreen) (row column : Int) : Option TerminalScreen :=
  screen.editLine row (clearLineCell screen.columnsValue column)

def setCell (screen : TerminalScreen) (row column : Int) (cell : Cell) : Option TerminalScreen :=
  screen.editLine row fun line => setAt line column cell

-- A mark of width 0 joins the cell before the cursor, or the last one of a full line.
def combine (screen : TerminalScreen) (character : Nat) : Option TerminalScreen := do
  let line ← at? screen.lines screen.cursorRow
  let current ← at? line screen.cursorColumn
  let column := if screen.wrapPending ∧ current ≠ [] then screen.cursorColumn else max 0 (screen.cursorColumn - 1)
  let cell ← at? line column
  if cell ≠ [] then (screen.setCell screen.cursorRow column (cell ++ [character])).map markDirty else some screen

def carriageLineFeed (screen : TerminalScreen) : Option TerminalScreen :=
  screen.lineFeed.map fun fed => { fed with cursorColumn := 0 }

def wrapIfPending (screen : TerminalScreen) : Option TerminalScreen :=
  if screen.wrapPending then
    (if screen.wrap then screen.carriageLineFeed else some screen).map fun wrapped => { wrapped with wrapPending := false }
  else some screen

def wrapIfWide (screen : TerminalScreen) (width : Int) : Option TerminalScreen :=
  if screen.columnsValue - screen.cursorColumn < width then
    if !screen.wrap then some { screen with cursorColumn := screen.columnsValue - 1 } else screen.carriageLineFeed
  else some screen

def clearTrailing (screen : TerminalScreen) (width : Int) : Option TerminalScreen :=
  if width = 2 ∧ screen.cursorColumn + 1 < screen.columnsValue then do
    let cleared ← screen.clearCell screen.cursorRow (screen.cursorColumn + 1)
    cleared.setCell cleared.cursorRow (cleared.cursorColumn + 1) []
  else some screen

def advance (screen : TerminalScreen) (width : Int) : TerminalScreen :=
  let nextColumn := screen.cursorColumn + width
  if screen.columnsValue ≤ nextColumn then
    { screen with cursorColumn := screen.columnsValue - 1, wrapPending := true, dirty := true }
  else { screen with cursorColumn := nextColumn, dirty := true }

def insertIfMode (screen : TerminalScreen) (width : Int) : Option TerminalScreen :=
  if screen.insertMode then screen.insertCharacters width else some screen

def writeCharacter (screen : TerminalScreen) (character : Nat) : Option TerminalScreen :=
  let width := codePointWidth character
  if width = 0 then screen.combine character
  else do
    let wrapped ← screen.wrapIfPending
    let placed ← wrapped.wrapIfWide width
    let opened ← placed.insertIfMode width
    let cleared ← opened.clearCell opened.cursorRow opened.cursorColumn
    let written ← cleared.setCell cleared.cursorRow cleared.cursorColumn [character]
    let trailed ← written.clearTrailing width
    some (trailed.advance width)

-- Number.parseInt(text, 10), and 0 where it is NaN.
def parseParam (text : List Nat) : Int :=
  let chars := (text.map Char.ofNat).dropWhile isTrimmed
  let negative := chars.head? = some '-'
  let digits := (if negative ∨ chars.head? = some '+' then chars.tail else chars).takeWhile Char.isDigit
  let value : Int := digits.foldl (fun value digit => value * 10 + (digit.toNat - 48 : Nat)) 0
  if negative then -value else value

def startsWith (raw : List Nat) (mark : Char) : Bool := raw.head? = some mark.toNat

def paramsOf (raw : List Nat) : List Int :=
  let body := if startsWith raw '?' || startsWith raw '>' || startsWith raw '!' then raw.drop 1 else raw
  (body.splitOn ';'.toNat).map fun part => parseParam (part.takeWhile fun code => code ≠ ':'.toNat)

def param (params : List Int) (index : Nat) : Int := params[index]?.getD 0

def countOf (params : List Int) : Int := max 1 (param params 0)

def position (params : List Int) (index : Nat) (fallback : Int) : Int :=
  if param params index = 0 then fallback else param params index

def setPrivateMode (screen : TerminalScreen) (enabled : Bool) (mode : Int) : Option TerminalScreen :=
  if mode = 1 then some { screen with applicationCursorKeys := enabled, applicationCursorKeysKnown := true }
  else if mode = 7 then
    some { screen with wrap := enabled, wrapPending := if enabled then screen.wrapPending else false }
  else if mode = 6 then
    let set := { screen with originMode := enabled }
    some (set.moveCursor (if enabled then set.scrollTop else 0) 0)
  else if mode = 47 ∨ mode = 1047 ∨ mode = 1049 then
    if enabled then screen.enterAlternateScreen else some screen.leaveAlternateScreen
  else some screen

def setMode (screen : TerminalScreen) (enabled : Bool) (mode : Int) : TerminalScreen :=
  if mode = 4 then { screen with insertMode := enabled } else screen

def respond (screen : TerminalScreen) (response : String) : TerminalScreen :=
  { screen with responses := screen.responses ++ [response] }

def deviceStatusReport (screen : TerminalScreen) (privateMode : Bool) (request : Int) : TerminalScreen :=
  if request = 5 ∧ !privateMode then screen.respond "\x1b[0n"
  else if request ≠ 6 then screen
  else
    let row := screen.cursorRow - (if screen.originMode then screen.scrollTop else 0) + 1
    let column := screen.cursorColumn + 1
    screen.respond (if privateMode then s!"\x1b[?{row};{column}R" else s!"\x1b[{row};{column}R")

def setScrollRegion (screen : TerminalScreen) (params : List Int) : TerminalScreen :=
  let top := clamp (position params 0 1 - 1) 0 (screen.rowsValue - 1)
  let bottom := clamp (position params 1 screen.rowsValue - 1) 0 (screen.rowsValue - 1)
  if top < bottom then
    let set := { screen with scrollTop := top, scrollBottom := bottom }
    set.moveCursor (if set.originMode then set.scrollTop else 0) 0
  else screen

def saveCursor (screen : TerminalScreen) : TerminalScreen :=
  { screen with savedCursorRow := screen.cursorRow, savedCursorColumn := screen.cursorColumn }

def restoreCursor (screen : TerminalScreen) : TerminalScreen :=
  screen.moveCursor screen.savedCursorRow screen.savedCursorColumn

def executeCsi (screen : TerminalScreen) (final : Char) (raw : List Nat) : Option TerminalScreen :=
  let privateMode := startsWith raw '?'
  let params := paramsOf raw
  let count := countOf params
  let row := screen.cursorRow
  let column := screen.cursorColumn
  match final with
  | 'A' => some (screen.moveCursor (row - count) column)
  | 'B' | 'e' => some (screen.moveCursor (row + count) column)
  | 'C' | 'a' => some (screen.moveCursor row (column + count))
  | 'D' => some (screen.moveCursor row (column - count))
  | 'E' => some (screen.moveCursor (row + count) 0)
  | 'F' => some (screen.moveCursor (row - count) 0)
  | 'G' | '\x60' => some (screen.moveCursor row (position params 0 1 - 1))
  | 'H' | 'f' => some (screen.moveCursorAddress (position params 0 1 - 1) (position params 1 1 - 1))
  | 'd' => some (screen.moveCursorAddress (position params 0 1 - 1) column)
  | 'J' => screen.eraseDisplay (param params 0)
  | 'K' => screen.eraseLine (param params 0)
  | 'L' => screen.insertLines count
  | 'M' => screen.deleteLines count
  | '@' => screen.insertCharacters count
  | 'P' => screen.deleteCharacters count
  | 'X' => screen.eraseCharacters count
  | 'S' => screen.scrollUp count
  | 'T' => screen.scrollDown count
  | 'r' => some (screen.setScrollRegion params)
  | 's' => some screen.saveCursor
  | 'u' => some screen.restoreCursor
  | 'h' | 'l' =>
      if privateMode then params.foldlM (fun screen mode => screen.setPrivateMode (final = 'h') mode) screen
      else some (params.foldl (fun screen mode => screen.setMode (final = 'h') mode) screen)
  | 'g' =>
      some { screen with
        tabStops := if param params 0 = 3 then [] else screen.tabStops.filter fun stop => stop ≠ screen.cursorColumn }
  | 'n' => some (screen.deviceStatusReport privateMode (param params 0))
  | 'c' => some (screen.respond (if startsWith raw '>' then "\x1b[>0;100;0c" else "\x1b[?1;2c"))
  | 't' =>
      let rows := screen.rowsValue
      let columns := screen.columnsValue
      some (if param params 0 = 18 then screen.respond s!"\x1b[8;{rows};{columns}t" else screen)
  | _ => some screen

def codeUnits (text : List Nat) : Nat := (text.map fun code => if 0x10000 ≤ code then 2 else 1).sum

def consumeCsi (screen : TerminalScreen) (code : Nat) : Option TerminalScreen :=
  if 0x40 ≤ code ∧ code ≤ 0x7e then
    (screen.executeCsi (Char.ofNat code) screen.control).map fun executed =>
      { executed with control := [], parserState := .ground }
  else if codeUnits screen.control < 256 then some { screen with control := screen.control ++ [code] }
  else some screen

def consumeGround (screen : TerminalScreen) (code : Nat) : Option TerminalScreen :=
  if code = 0x1b then some { screen with parserState := .escape }
  else if code = 0x0d then some (screen.moveCursor screen.cursorRow 0)
  else if code = 0x0a ∨ code = 0x0b ∨ code = 0x0c then screen.lineFeed
  else if code = 0x08 then some (screen.moveCursor screen.cursorRow (max 0 (screen.cursorColumn - 1)))
  else if code = 0x09 then some (screen.moveCursor screen.cursorRow screen.nextTabStop)
  else if code = 0x0e then some { screen with activeCharset := 1 }
  else if code = 0x0f then some { screen with activeCharset := 0 }
  else if code < 0x20 then some screen
  else screen.writeCharacter (screen.translateCharacter code)

-- The character after an escape, once the parser is back on the ground.
def escaped (screen : TerminalScreen) (code : Nat) : Option TerminalScreen :=
  match Char.ofNat code with
  | '[' => some { screen with control := [], parserState := .csi }
  | ']' | 'P' | '^' | '_' => some { screen with parserState := .osc }
  | '(' | ')' | '*' | '+' | '-' | '.' | '/' =>
      some { screen with escapeIntermediate := some code, parserState := .escapeIntermediate }
  | 'H' => some { screen with tabStops := screen.tabStops ++ [screen.cursorColumn] }
  | '7' => some screen.saveCursor
  | '8' => some screen.restoreCursor
  | 'D' => screen.lineFeed
  | 'E' => screen.lineFeed.map fun fed => fed.moveCursor fed.cursorRow 0
  | 'M' => screen.reverseIndex
  | 'c' => screen.reset
  | _ => some screen

def consumeEscape (screen : TerminalScreen) (code : Nat) : Option TerminalScreen :=
  { screen with parserState := .ground }.escaped code

def consumeEscapeIntermediate (screen : TerminalScreen) (code : Nat) : TerminalScreen :=
  let charset := if code = '0'.toNat then Charset.dec else .ascii
  { screen with
    g0Charset := if screen.escapeIntermediate = some '('.toNat then charset else screen.g0Charset
    g1Charset := if screen.escapeIntermediate = some ')'.toNat then charset else screen.g1Charset
    escapeIntermediate := none
    parserState := .ground }

def consume (screen : TerminalScreen) (code : Nat) : Option TerminalScreen :=
  match screen.parserState with
  | .ground => screen.consumeGround code
  | .escape => screen.consumeEscape code
  | .escapeIntermediate => some (screen.consumeEscapeIntermediate code)
  | .csi => screen.consumeCsi code
  | .osc =>
      some (if code = 0x07 then { screen with parserState := .ground }
        else if code = 0x1b then { screen with parserState := .oscEscape } else screen)
  | .oscEscape => some { screen with parserState := if code = '\\'.toNat then .ground else .osc }

-- feed(text), for the code points of the text.
def feed (screen : TerminalScreen) (text : List Nat) : Option TerminalScreen :=
  (text.foldlM consume { screen with dirty := false }).map fun fed =>
    { fed with generationValue := if fed.dirty then fed.generationValue + 1 else fed.generationValue }

end TerminalScreen

inductive ScreenCall where
  | feed (text : List Nat)
  | resize (columns rows : Int)
  | lostOutput

def TerminalScreen.perform (screen : TerminalScreen) : ScreenCall → Option TerminalScreen
  | .feed text => screen.feed text
  | .resize columns rows => screen.resize columns rows
  | .lostOutput => screen.lostOutput

end Vacps.Terminal
