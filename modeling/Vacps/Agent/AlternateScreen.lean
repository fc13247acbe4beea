import Vacps.Agent.ScreenShape
import Vacps.Library.Runs

/- What is fed to the alternate screen does not reach the primary one that is kept meanwhile. -/
set_option autoImplicit false

namespace Vacps.Terminal

open Library Library.JsArray

namespace TerminalScreen

-- Every screen the step leaves keeps this beside it.
def Spares (saved : Option SavedPrimary) (result : Option TerminalScreen) : Prop := ∀ screen, result = some screen → screen.primary = saved

theorem spares_some (saved : Option SavedPrimary) (screen : TerminalScreen) (same : screen.primary = saved) :
    Spares saved (some screen) := by
  intro last result
  rw [← Option.some.inj result]
  exact same

theorem spares_bind (saved : Option SavedPrimary) (result : Option TerminalScreen) (next : TerminalScreen → Option TerminalScreen)
    (spares : Spares saved result) (later : ∀ screen : TerminalScreen, screen.primary = saved → Spares saved (next screen)) :
    Spares saved (result >>= next) := by
  intro last reached
  obtain ⟨screen, found, rest⟩ := Option.bind_eq_some_iff.mp reached
  exact later screen (spares screen found) last rest

theorem spares_map (saved : Option SavedPrimary) (result : Option TerminalScreen) (change : TerminalScreen → TerminalScreen)
    (spares : Spares saved result) (kept : ∀ screen : TerminalScreen, screen.primary = saved → (change screen).primary = saved) :
    Spares saved (result.map change) := by
  intro last reached
  obtain ⟨screen, found, rfl⟩ := Option.map_eq_some_iff.mp reached
  exact kept screen (spares screen found)

theorem spares_fold {α : Type} (saved : Option SavedPrimary) (items : List α) (step : TerminalScreen → α → Option TerminalScreen)
    (each : ∀ item ∈ items, ∀ screen : TerminalScreen, screen.primary = saved → Spares saved (step screen item))
    (start : TerminalScreen) (same : start.primary = saved) : Spares saved (items.foldlM step start) := by
  induction items generalizing start with
  | nil => exact spares_some saved start same
  | cons first rest ih =>
      rw [List.foldlM_cons]
      apply spares_bind
      · exact each first List.mem_cons_self start same
      · exact ih fun item member => each item (List.mem_cons_of_mem _ member)

theorem edit_line_spares (screen : TerminalScreen) (row : Int) (edit : Line → Option Line) :
    Spares screen.primary (screen.editLine row edit) := by
  intro last reached
  obtain ⟨line, _, reached⟩ := Option.bind_eq_some_iff.mp reached
  obtain ⟨edited, _, reached⟩ := Option.bind_eq_some_iff.mp reached
  obtain ⟨lines, _, reached⟩ := Option.bind_eq_some_iff.mp reached
  rw [← Option.some.inj reached]

theorem edit_here_spares (screen : TerminalScreen) (edit : Line → Option Line) :
    Spares screen.primary ((screen.editLine screen.cursorRow edit).map markDirty) :=
  spares_map _ _ markDirty (screen.edit_line_spares _ edit) fun _ same => same

-- A step that only makes lines.
theorem relined_spares (screen : TerminalScreen) (made : Option (List Line)) (change : List Line → TerminalScreen)
    (kept : ∀ lines, (change lines).primary = screen.primary) : Spares screen.primary (made.map change) := by
  intro last reached
  obtain ⟨lines, _, rfl⟩ := Option.map_eq_some_iff.mp reached
  exact kept lines

@[simp] theorem moved_primary (screen : TerminalScreen) (row column : Int) : (screen.moveCursor row column).primary = screen.primary := by
  unfold moveCursor
  dsimp only
  split <;> rfl

theorem scroll_up_spares (screen : TerminalScreen) (count : Int) : Spares screen.primary (screen.scrollUp count) :=
  screen.relined_spares _ _ fun _ => rfl

theorem scroll_down_spares (screen : TerminalScreen) (count : Int) : Spares screen.primary (screen.scrollDown count) :=
  screen.relined_spares _ _ fun _ => rfl

theorem insert_lines_spares (screen : TerminalScreen) (count : Int) : Spares screen.primary (screen.insertLines count) := by
  unfold insertLines
  split
  · exact spares_some _ screen rfl
  · exact screen.relined_spares _ _ fun _ => rfl

theorem delete_lines_spares (screen : TerminalScreen) (count : Int) : Spares screen.primary (screen.deleteLines count) := by
  unfold deleteLines
  split
  · exact spares_some _ screen rfl
  · exact screen.relined_spares _ _ fun _ => rfl

theorem line_feed_spares (screen : TerminalScreen) : Spares screen.primary screen.lineFeed := by
  unfold lineFeed
  split
  · exact screen.scroll_up_spares 1
  · exact spares_some _ _ (moved_primary _ _ _)

theorem reverse_index_spares (screen : TerminalScreen) : Spares screen.primary screen.reverseIndex := by
  unfold reverseIndex
  split
  · exact screen.scroll_down_spares 1
  · exact spares_some _ _ (moved_primary _ _ _)

theorem fill_rows_spares (screen : TerminalScreen) (first : Int) (n : Nat) : Spares screen.primary (screen.fillRows first n) := by
  induction n generalizing screen first with
  | zero => exact spares_some _ screen rfl
  | succ n ih =>
      apply spares_bind _ _ _ (screen.edit_line_spares first _)
      intro filled same
      rw [← same]
      exact ih filled (first + 1)

theorem erase_display_spares (screen : TerminalScreen) (mode : Int) : Spares screen.primary (screen.eraseDisplay mode) := by
  unfold eraseDisplay
  split
  · exact screen.relined_spares _ _ fun _ => rfl
  · split
    · apply spares_bind _ _ _ (screen.fill_rows_spares 0 _)
      intro above same
      apply spares_bind
      · rw [← same]
        exact above.edit_line_spares _ _
      · exact fun erased same => spares_some _ _ same
    · apply spares_bind _ _ _ (screen.edit_line_spares screen.cursorRow _)
      intro here same
      apply spares_bind
      · rw [← same]
        exact here.fill_rows_spares _ _
      · exact fun erased same => spares_some _ _ same

theorem combine_spares (screen : TerminalScreen) (character : Nat) : Spares screen.primary (screen.combine character) := by
  intro last reached
  obtain ⟨line, _, reached⟩ := Option.bind_eq_some_iff.mp reached
  obtain ⟨current, _, reached⟩ := Option.bind_eq_some_iff.mp reached
  obtain ⟨cell, _, reached⟩ := Option.bind_eq_some_iff.mp reached
  split at reached
  · exact spares_map _ _ markDirty (screen.edit_line_spares _ _) (fun _ same => same) last reached
  · rw [← Option.some.inj reached]

theorem carriage_spares (screen : TerminalScreen) : Spares screen.primary screen.carriageLineFeed :=
  spares_map _ _ _ screen.line_feed_spares fun _ same => same

theorem wrap_pending_spares (screen : TerminalScreen) : Spares screen.primary screen.wrapIfPending := by
  unfold wrapIfPending
  split
  · apply spares_map
    · split
      · exact screen.carriage_spares
      · exact spares_some _ screen rfl
    · exact fun _ same => same
  · exact spares_some _ screen rfl

theorem wrap_wide_spares (screen : TerminalScreen) (width : Int) : Spares screen.primary (screen.wrapIfWide width) := by
  unfold wrapIfWide
  split
  · split
    · exact spares_some _ _ rfl
    · exact screen.carriage_spares
  · exact spares_some _ screen rfl

theorem insert_if_mode_spares (screen : TerminalScreen) (width : Int) : Spares screen.primary (screen.insertIfMode width) := by
  unfold insertIfMode
  split
  · exact screen.edit_here_spares _
  · exact spares_some _ screen rfl

theorem clear_trailing_spares (screen : TerminalScreen) (width : Int) : Spares screen.primary (screen.clearTrailing width) := by
  unfold clearTrailing
  split
  · apply spares_bind _ _ _ (screen.edit_line_spares _ _)
    intro cleared same
    rw [← same]
    exact cleared.edit_line_spares _ _
  · exact spares_some _ screen rfl

theorem advanced_primary (screen : TerminalScreen) (width : Int) : (screen.advance width).primary = screen.primary := by
  unfold advance
  dsimp only
  split <;> rfl

theorem write_character_spares (screen : TerminalScreen) (character : Nat) : Spares screen.primary (screen.writeCharacter character) := by
  unfold writeCharacter
  dsimp only
  split
  · exact screen.combine_spares character
  · apply spares_bind _ _ _ screen.wrap_pending_spares
    intro wrapped same
    apply spares_bind _ _ _ (same ▸ wrapped.wrap_wide_spares _)
    intro placed same
    apply spares_bind _ _ _ (same ▸ placed.insert_if_mode_spares _)
    intro opened same
    apply spares_bind _ _ _ (same ▸ opened.edit_line_spares _ _)
    intro cleared same
    apply spares_bind _ _ _ (same ▸ cleared.edit_line_spares _ _)
    intro written same
    apply spares_bind _ _ _ (same ▸ written.clear_trailing_spares _)
    exact fun trailed same => spares_some _ _ ((trailed.advanced_primary _).trans same)

def alternateMode (mode : Int) : Bool := mode = 47 || mode = 1047 || mode = 1049

def setPrivate (screen : TerminalScreen) (set : Bool × Int) : Option TerminalScreen := screen.setPrivateMode set.1 set.2

-- The private modes that a character sets or resets, in their order.
def modesSet (screen : TerminalScreen) (code : Nat) : List (Bool × Int) :=
  if screen.parserState = .csi ∧ startsWith screen.control '?' ∧ (code = 'h'.toNat ∨ code = 'l'.toNat) then
    (paramsOf screen.control).map fun mode => (decide (code = 'h'.toNat), mode)
  else []

def Leaves (screen : TerminalScreen) (code : Nat) : Prop := ∃ set ∈ screen.modesSet code, set.1 = false ∧ alternateMode set.2 = true

def Resets (screen : TerminalScreen) (code : Nat) : Prop := screen.parserState = .escape ∧ code = 'c'.toNat

instance decidableLeaves (screen : TerminalScreen) (code : Nat) : Decidable (screen.Leaves code) :=
  inferInstanceAs (Decidable (∃ set ∈ screen.modesSet code, set.1 = false ∧ alternateMode set.2 = true))

instance decidableResets (screen : TerminalScreen) (code : Nat) : Decidable (screen.Resets code) :=
  inferInstanceAs (Decidable (_ ∧ _))

theorem enter_again (screen : TerminalScreen) (saved : SavedPrimary) (away : screen.primary = some saved) :
    screen.enterAlternateScreen = some screen := by
  rw [enterAlternateScreen, away]

theorem plain_mode_spares (screen : TerminalScreen) (enabled : Bool) (mode : Int) (plain : alternateMode mode = false) :
    Spares screen.primary (screen.setPrivateMode enabled mode) := by
  unfold setPrivateMode
  split
  · exact spares_some _ _ rfl
  · split
    · exact spares_some _ _ rfl
    · split
      · exact spares_some _ _ (moved_primary _ _ _)
      · split
        · rename_i alternate
          have mode_ : alternateMode mode = true := by simpa [alternateMode, or_assoc] using alternate
          rw [plain] at mode_
          cases mode_
        · exact spares_some _ _ rfl

theorem alternate_mode (screen : TerminalScreen) (enabled : Bool) (mode : Int) (alternate : alternateMode mode = true) :
    screen.setPrivateMode enabled mode = if enabled then screen.enterAlternateScreen else some screen.leaveAlternateScreen := by
  have values : mode = 47 ∨ mode = 1047 ∨ mode = 1049 := by simpa [alternateMode, or_assoc] using alternate
  rw [setPrivateMode, if_neg (by omega), if_neg (by omega), if_neg (by omega), if_pos values]

theorem set_private_mode_spares (screen : TerminalScreen) (enabled : Bool) (mode : Int) (saved : SavedPrimary)
    (away : screen.primary = some saved) (stays : ¬(enabled = false ∧ alternateMode mode = true)) :
    Spares (some saved) (screen.setPrivateMode enabled mode) := by
  cases alternate : alternateMode mode with
  | false => exact away ▸ screen.plain_mode_spares enabled mode alternate
  | true =>
      have on : enabled = true := by simpa [alternate] using stays
      rw [screen.alternate_mode enabled mode alternate, if_pos on, screen.enter_again saved away]
      exact spares_some _ _ away

theorem set_modes_primary (params : List Int) (enabled : Bool) (screen : TerminalScreen) :
    (params.foldl (fun screen mode => screen.setMode enabled mode) screen).primary = screen.primary := by
  induction params generalizing screen with
  | nil => rfl
  | cons mode rest ih =>
      rw [List.foldl_cons, ih, setMode]
      split <;> rfl

theorem device_status_primary (screen : TerminalScreen) (privateMode : Bool) (request : Int) :
    (screen.deviceStatusReport privateMode request).primary = screen.primary := by
  unfold deviceStatusReport
  split
  · rfl
  · split <;> rfl

theorem set_scroll_region_primary (screen : TerminalScreen) (params : List Int) :
    (screen.setScrollRegion params).primary = screen.primary := by
  unfold setScrollRegion
  dsimp only
  split
  · exact moved_primary _ _ _
  · rfl

-- Of the sequences only one that resets a mode of the alternate screen leaves it.
theorem execute_csi_spares (screen : TerminalScreen) (final : Char) (raw : List Nat) (saved : SavedPrimary)
    (away : screen.primary = some saved)
    (stays : final = 'l' → startsWith raw '?' = true → ∀ mode ∈ paramsOf raw, alternateMode mode = false) :
    Spares (some saved) (screen.executeCsi final raw) := by
  have kept : ∀ last : TerminalScreen, last.primary = screen.primary → Spares (some saved) (some last) :=
    fun last same => spares_some _ _ (same.trans away)
  have move : ∀ row column, Spares (some saved) (some (screen.moveCursor row column)) :=
    fun row column => kept _ (moved_primary screen row column)
  have modes : ∀ enabled : Bool, (enabled = false → startsWith raw '?' = true → ∀ mode ∈ paramsOf raw, alternateMode mode = false) →
      Spares (some saved) (if startsWith raw '?' then
        (paramsOf raw).foldlM (fun screen mode => screen.setPrivateMode enabled mode) screen
      else some ((paramsOf raw).foldl (fun screen mode => screen.setMode enabled mode) screen)) := by
    intro enabled stays
    split
    · rename_i question
      refine spares_fold _ _ _ (fun mode member other same => ?_) screen away
      refine other.set_private_mode_spares enabled mode saved same fun leaves => ?_
      rw [stays leaves.1 question mode member] at leaves
      exact Bool.false_ne_true leaves.2
    · exact kept _ (set_modes_primary _ enabled screen)
  have report : Spares (some saved) (some (if param (paramsOf raw) 0 = 18 then
      screen.respond s!"\x1b[8;{screen.rowsValue};{screen.columnsValue}t" else screen)) := by
    split
    · exact kept _ rfl
    · exact kept _ rfl
  unfold executeCsi
  dsimp only
  split
  case h_1 | h_2 | h_3 | h_4 | h_5 | h_6 | h_7 | h_8 | h_9 | h_10 => exact move _ _
  case h_11 | h_12 | h_13 => exact move _ _
  case h_14 => exact away ▸ screen.erase_display_spares _
  case h_15 => exact away ▸ screen.edit_here_spares _
  case h_16 => exact away ▸ screen.insert_lines_spares _
  case h_17 => exact away ▸ screen.delete_lines_spares _
  case h_18 => exact away ▸ screen.edit_here_spares _
  case h_19 => exact away ▸ screen.edit_here_spares _
  case h_20 => exact away ▸ screen.edit_here_spares _
  case h_21 => exact away ▸ screen.scroll_up_spares _
  case h_22 => exact away ▸ screen.scroll_down_spares _
  case h_23 => exact kept _ (set_scroll_region_primary screen _)
  case h_24 => exact kept _ rfl
  case h_25 => exact move _ _
  case h_26 => exact modes true fun off => absurd off (by decide)
  case h_27 => exact modes false fun _ => stays rfl
  case h_28 => exact kept _ rfl
  case h_29 => exact kept _ (device_status_primary screen _ _)
  case h_30 => exact kept _ rfl
  case h_31 => exact report
  case h_32 => exact kept _ rfl

theorem consume_ground_spares (screen : TerminalScreen) (code : Nat) : Spares screen.primary (screen.consumeGround code) := by
  have move : ∀ row column, Spares screen.primary (some (screen.moveCursor row column)) :=
    fun row column => spares_some _ _ (moved_primary screen row column)
  unfold consumeGround
  split
  · exact spares_some _ _ rfl
  split
  · exact move _ _
  split
  · exact screen.line_feed_spares
  split
  · exact move _ _
  split
  · exact move _ _
  split
  · exact spares_some _ _ rfl
  split
  · exact spares_some _ _ rfl
  split
  · exact spares_some _ _ rfl
  · exact screen.write_character_spares _

theorem code_of (code : Nat) (char : Char) (some_ : char ≠ Char.ofNat 0) (same : Char.ofNat code = char) : code = char.toNat := by
  by_cases valid : code.isValidChar
  · rw [← same, Char.ofNat, dif_pos valid]
    rfl
  · rw [Char.ofNat, dif_neg valid] at same
    exact absurd same.symm some_

theorem escaped_spares (screen : TerminalScreen) (code : Nat) (other : code ≠ 'c'.toNat) :
    Spares screen.primary (screen.escaped code) := by
  unfold escaped
  split
  case h_1 | h_2 | h_3 | h_4 | h_5 | h_6 | h_7 | h_8 | h_9 | h_10 | h_11 | h_12 | h_13 | h_14 => exact spares_some _ _ rfl
  case h_15 => exact spares_some _ _ (moved_primary _ _ _)
  case h_16 => exact screen.line_feed_spares
  case h_17 => exact spares_map _ _ _ screen.line_feed_spares fun fed same => (moved_primary _ _ _).trans same
  case h_18 => exact screen.reverse_index_spares
  case h_19 reset => exact absurd (code_of code 'c' (by decide) reset) other
  case h_20 => exact spares_some _ _ rfl

theorem consume_csi_spares (screen : TerminalScreen) (code : Nat) (saved : SavedPrimary) (away : screen.primary = some saved)
    (csi : screen.parserState = .csi) (stays : ¬screen.Leaves code) : Spares (some saved) (screen.consumeCsi code) := by
  unfold consumeCsi
  split
  · apply spares_map
    · refine screen.execute_csi_spares _ _ saved away fun final question mode member => ?_
      have letter := code_of code 'l' (by decide) final
      by_contra alternate
      refine stays ⟨(false, mode), ?_, rfl, by simpa using alternate⟩
      rw [modesSet, if_pos ⟨csi, question, Or.inr letter⟩, letter]
      exact List.mem_map.mpr ⟨mode, member, rfl⟩
    · exact fun _ same => same
  · split
    · exact spares_some _ _ away
    · exact spares_some _ _ away

theorem consume_spares (screen : TerminalScreen) (code : Nat) (saved : SavedPrimary) (away : screen.primary = some saved)
    (stays : ¬screen.Leaves code) (unreset : ¬screen.Resets code) : Spares (some saved) (screen.consume code) := by
  cases state : screen.parserState with
  | ground =>
      rw [consume, state]
      exact away ▸ screen.consume_ground_spares code
  | escape =>
      rw [consume, state]
      exact away ▸ escaped_spares { screen with parserState := .ground } code fun letter => unreset ⟨state, letter⟩
  | escapeIntermediate =>
      rw [consume, state]
      exact spares_some _ _ away
  | csi =>
      rw [consume, state]
      exact screen.consume_csi_spares code saved away state stays
  | osc =>
      rw [consume, state]
      apply spares_some
      split
      · exact away
      · split
        · exact away
        · exact away
  | oscEscape =>
      rw [consume, state]
      exact spares_some _ _ away

section sequences

def executed (screen : TerminalScreen) : TerminalScreen := { screen with control := [], parserState := .ground }

-- A character that sets private modes does nothing else.
theorem consume_modes (screen : TerminalScreen) (code : Nat) (some_ : screen.modesSet code ≠ []) :
    screen.consume code = ((screen.modesSet code).foldlM setPrivate screen).map executed := by
  by_cases sets : screen.parserState = .csi ∧ startsWith screen.control '?' ∧ (code = 'h'.toNat ∨ code = 'l'.toNat)
  · rw [modesSet, if_pos sets, List.foldlM_map]
    obtain ⟨csi, question, rfl | rfl⟩ := sets
    · rw [consume, csi]
      simp only [consumeCsi, executeCsi, question]
      rfl
    · rw [consume, csi]
      simp only [consumeCsi, executeCsi, question]
      rfl
  · rw [modesSet, if_neg sets] at some_
    exact absurd rfl some_

theorem modes_flag (screen : TerminalScreen) (code : Nat) (set : Bool × Int) (member : set ∈ screen.modesSet code) :
    set.1 = decide (code = 'h'.toNat) := by
  rw [modesSet] at member
  split at member
  · obtain ⟨mode, _, rfl⟩ := List.mem_map.mp member
    rfl
  · cases member

end sequences

end TerminalScreen

section feeding

-- A feed begins, consumes its characters and ends.
inductive FeedStep where
  | begins
  | character (code : Nat)
  | ends

def TerminalScreen.step (screen : TerminalScreen) : FeedStep → Option TerminalScreen
  | .begins => some { screen with dirty := false }
  | .character code => screen.consume code
  | .ends => some { screen with generationValue := if screen.dirty then screen.generationValue + 1 else screen.generationValue }

def FeedStep.Stays (screen : TerminalScreen) : FeedStep → Prop
  | .character code => ¬screen.Leaves code ∧ ¬screen.Resets code
  | _ => True

instance decidableStays (screen : TerminalScreen) : (step : FeedStep) → Decidable (step.Stays screen)
  | .begins => isTrue trivial
  | .character code => inferInstanceAs (Decidable (¬screen.Leaves code ∧ ¬screen.Resets code))
  | .ends => isTrue trivial

theorem feed_steps (screen : TerminalScreen) (text : List Nat) :
    screen.feed text = (FeedStep.begins :: text.map FeedStep.character ++ [FeedStep.ends]).foldlM TerminalScreen.step screen := by
  have last : ∀ fed : TerminalScreen, [FeedStep.ends].foldlM TerminalScreen.step fed =
      some { fed with generationValue := if fed.dirty then fed.generationValue + 1 else fed.generationValue } := fun _ => rfl
  rw [List.cons_append, List.foldlM_cons]
  change _ = (text.map FeedStep.character ++ [FeedStep.ends]).foldlM TerminalScreen.step { screen with dirty := false }
  rw [List.foldlM_append, List.foldlM_map]
  simp only [last]
  exact Option.map_eq_bind

-- The screens of a session, between two steps of a feed as between two calls.
inductive Reached : TerminalScreen → Prop where
  | created (columns rows : Int) (wide : 2 ≤ columns) (high : 1 ≤ rows) (screen : TerminalScreen)
      (made : TerminalScreen.create columns rows = some screen) : Reached screen
  | fed (screen next : TerminalScreen) (step : FeedStep) (before : Reached screen) (result : screen.step step = some next) : Reached next
  | called (screen next : TerminalScreen) (call : ScreenCall) (sized : call.Sized) (before : Reached screen)
      (result : screen.perform call = some next) : Reached next

theorem step_safe (screen : TerminalScreen) (step : FeedStep) (fits : screen.Fits) : TerminalScreen.Safe (screen.step step) := by
  cases step with
  | begins => exact TerminalScreen.safe_some _ ⟨fits.columns, fits.rows, fits.active, fits.saved⟩
  | character code => exact screen.consume_safe code fits
  | ends => exact TerminalScreen.safe_some _ ⟨fits.columns, fits.rows, fits.active, fits.saved⟩

theorem reached_fits (screen : TerminalScreen) (reached : Reached screen) : screen.Fits := by
  induction reached with
  | created columns rows wide high screen made => exact TerminalScreen.safe_fits _ screen (TerminalScreen.create_safe columns rows wide high) made
  | fed screen next step before result ih => exact TerminalScreen.safe_fits _ next (step_safe screen step ih) result
  | called screen next call sized before result ih => exact TerminalScreen.safe_fits _ next (perform_safe screen call ih sized) result

theorem step_spares (screen : TerminalScreen) (step : FeedStep) (saved : SavedPrimary) (away : screen.primary = some saved)
    (stays : step.Stays screen) : TerminalScreen.Spares (some saved) (screen.step step) := by
  cases step with
  | begins => exact TerminalScreen.spares_some _ _ away
  | character code => exact screen.consume_spares code saved away stays.1 stays.2
  | ends => exact TerminalScreen.spares_some _ _ away

-- Along a text that stays on the alternate screen the primary one is kept as it is.
theorem steps_spare (steps : List FeedStep) (screen : TerminalScreen) (saved : SavedPrimary) (away : screen.primary = some saved)
    (fits : screen.Fits) (stays : AlongSome TerminalScreen.step (fun screen step => step.Stays screen) screen steps) :
    ∃ last, steps.foldlM TerminalScreen.step screen = some last ∧ last.primary = some saved ∧ last.Fits := by
  induction steps generalizing screen with
  | nil => exact ⟨screen, rfl, away, fits⟩
  | cons step rest ih =>
      obtain ⟨next, result, fitsNext⟩ := step_safe screen step fits
      have awayNext := step_spares screen step saved away stays.1 next result
      rw [List.foldlM_cons, result]
      exact ih next awayNext fitsNext (along_some_next _ _ screen next step rest stays result)

-- What the primary screen has again.
structure Restores (left entry : TerminalScreen) : Prop where
  lines : left.lines = entry.lines
  cursor : left.cursorRow = entry.cursorRow ∧ left.cursorColumn = entry.cursorColumn
  margins : left.scrollTop = entry.scrollTop ∧ left.scrollBottom = entry.scrollBottom
  wrap : left.wrap = entry.wrap
  originMode : left.originMode = entry.originMode
  primary : left.primary = none

-- A character that switches to the alternate screen or back: the modes before the first that does, and those behind it.
structure Switches (screen : TerminalScreen) (code : Nat) (enabled : Bool) (first others : List (Bool × Int)) : Prop where
  sequence : ∃ mode, screen.modesSet code = first ++ (enabled, mode) :: others ∧ TerminalScreen.alternateMode mode = true
  plain : ∀ set ∈ first, TerminalScreen.alternateMode set.2 = false

theorem switch_flag (screen : TerminalScreen) (code : Nat) (enabled : Bool) (first others : List (Bool × Int))
    (switches : Switches screen code enabled first others) (set : Bool × Int) (member : set ∈ screen.modesSet code) : set.1 = enabled := by
  obtain ⟨mode, sequence, _⟩ := switches.sequence
  have here : (enabled, mode) ∈ screen.modesSet code := by
    rw [sequence]
    exact List.mem_append_right _ List.mem_cons_self
  have flag := screen.modes_flag code _ here
  dsimp only at flag
  rw [screen.modes_flag code set member, flag]

theorem plain_modes (first : List (Bool × Int)) (screen : TerminalScreen) (fits : screen.Fits)
    (plain : ∀ set ∈ first, TerminalScreen.alternateMode set.2 = false) :
    ∃ last, first.foldlM TerminalScreen.setPrivate screen = some last ∧ last.primary = screen.primary ∧ last.Fits := by
  obtain ⟨last, result, fitsLast⟩ := TerminalScreen.safe_fold first TerminalScreen.setPrivate
    (fun set _ screen fits => screen.set_private_mode_safe set.1 set.2 fits) screen fits
  refine ⟨last, result, ?_, fitsLast⟩
  refine TerminalScreen.spares_fold screen.primary first TerminalScreen.setPrivate (fun set member other same => ?_) screen rfl last result
  exact same ▸ other.plain_mode_spares set.1 set.2 (plain set member)

theorem switch_modes (screen : TerminalScreen) (code : Nat) (enabled : Bool) (first others : List (Bool × Int))
    (switches : Switches screen code enabled first others) (here : TerminalScreen)
    (before : first.foldlM TerminalScreen.setPrivate screen = some here) :
    screen.consume code = ((if enabled then here.enterAlternateScreen else some here.leaveAlternateScreen) >>=
      fun switched => others.foldlM TerminalScreen.setPrivate switched).map TerminalScreen.executed := by
  obtain ⟨mode, sequence, alternate⟩ := switches.sequence
  rw [screen.consume_modes code (by simp [sequence]), sequence, List.foldlM_append, before]
  refine congrArg (Option.map TerminalScreen.executed) ?_
  change ((enabled, mode) :: others).foldlM TerminalScreen.setPrivate here = _
  rw [List.foldlM_cons]
  exact congrArg (· >>= fun switched => others.foldlM TerminalScreen.setPrivate switched) (here.alternate_mode enabled mode alternate)

-- What is on the screen when it is entered is what is put aside.
theorem entered_saves (screen : TerminalScreen) (fits : screen.Fits) (on : screen.primary = none) :
    ∃ entered saved, screen.enterAlternateScreen = some entered ∧ entered.primary = some saved ∧ entered.Fits ∧
      ∀ last : TerminalScreen, last.primary = some saved → Restores last.leaveAlternateScreen screen := by
  obtain ⟨entered, result, fitsEntered⟩ := screen.enter_alternate_safe fits
  have made := result
  rw [TerminalScreen.enterAlternateScreen, on] at made
  obtain ⟨lines, _, rfl⟩ := Option.map_eq_some_iff.mp made
  refine ⟨_, _, result, rfl, fitsEntered, fun last away => ?_⟩
  rw [TerminalScreen.leaveAlternateScreen, away]
  exact ⟨rfl, ⟨rfl, rfl⟩, ⟨rfl, rfl⟩, rfl, rfl, rfl⟩

end feeding

section concrete

-- A letter on one line of three cells, and ESC [ ? 1 0 4 9 without its last character.
def enteringScreen : TerminalScreen where
  columnsValue := 3
  rowsValue := 1
  lines := [[[0x61], space, space]]
  cursorColumn := 1
  scrollBottom := 0
  tabStops := []
  parserState := .csi
  control := [0x3f, 0x31, 0x30, 0x34, 0x39]
  dirty := true
  generationValue := 1

def blankScreen : TerminalScreen where
  columnsValue := 3
  rowsValue := 1
  lines := [[space, space, space]]
  scrollBottom := 0
  tabStops := []
  primary := some ⟨[[[0x61], space, space]], 0, 1, 0, 0, true, false⟩
  dirty := true
  generationValue := 1

-- Another letter, and ESC [ ? 7 ; 4 7.
def lettersAfter : List FeedStep := [0x62, 0x1b, 0x5b, 0x3f, 0x37, 0x3b, 0x34, 0x37].map FeedStep.character

def leavingScreen : TerminalScreen :=
  { blankScreen with
    lines := [[[0x62], space, space]]
    cursorColumn := 1
    parserState := .csi
    control := [0x3f, 0x37, 0x3b, 0x34, 0x37] }

theorem entering_reached : Reached enteringScreen := by
  refine .called _ _ (.feed [0x61, 0x1b, 0x5b, 0x3f, 0x31, 0x30, 0x34, 0x39]) trivial (.created 3 1 (by decide) (by decide) _ rfl) ?_
  decide

end concrete

-- Where a character enters the alternate screen and a later one leaves it again, with none between the two that leaves it or
-- resets the terminal, the primary screen is what it was.
theorem alternate_screen_restores (screen : TerminalScreen) (reached : Reached screen) (on : screen.primary = none) (code : Nat)
    (first others : List (Bool × Int)) (enters : Switches screen code true first others) :
    ∃ entry entered, first.foldlM TerminalScreen.setPrivate screen = some entry ∧ screen.consume code = some entered ∧
      ∀ steps : List FeedStep, AlongSome TerminalScreen.step (fun screen step => step.Stays screen) entered steps →
        ∃ last, steps.foldlM TerminalScreen.step entered = some last ∧
          ∀ (code : Nat) (first others : List (Bool × Int)), Switches last code false first others →
            ∃ leaving left, first.foldlM TerminalScreen.setPrivate last = some leaving ∧
              others.foldlM TerminalScreen.setPrivate leaving.leaveAlternateScreen = some left ∧
              last.consume code = some left.executed ∧ Restores leaving.leaveAlternateScreen entry := by
  obtain ⟨entry, before, onEntry, fitsEntry⟩ := plain_modes first screen (reached_fits screen reached) enters.plain
  rw [on] at onEntry
  obtain ⟨switched, saved, entering, away, fitsSwitched, restores⟩ := entered_saves entry fitsEntry onEntry
  have stays : ∀ set ∈ others, set.1 = true := by
    intro set member
    obtain ⟨mode, sequence, _⟩ := enters.sequence
    refine switch_flag screen code true first others enters set ?_
    rw [sequence]
    exact List.mem_append_right _ (List.mem_cons_of_mem _ member)
  obtain ⟨entered, behind, fitsEntered⟩ := TerminalScreen.safe_fold others TerminalScreen.setPrivate
    (fun set _ screen fits => screen.set_private_mode_safe set.1 set.2 fits) switched fitsSwitched
  have kept : entered.primary = some saved := by
    refine TerminalScreen.spares_fold (some saved) others TerminalScreen.setPrivate (fun set member other same => ?_) switched away
      entered behind
    refine other.set_private_mode_spares set.1 set.2 saved same fun leaves => ?_
    rw [stays set member] at leaves
    cases leaves.1
  have into := switch_modes screen code true first others enters entry before
  rw [if_pos rfl, entering] at into
  change _ = (others.foldlM TerminalScreen.setPrivate switched).map TerminalScreen.executed at into
  rw [behind] at into
  refine ⟨entry, _, before, into, fun steps along => ?_⟩
  have fitsInto : (TerminalScreen.executed entered).Fits :=
    ⟨fitsEntered.columns, fitsEntered.rows, fitsEntered.active, fitsEntered.saved⟩
  obtain ⟨last, ran, awayLast, fitsLast⟩ := steps_spare steps entered.executed saved kept fitsInto along
  refine ⟨last, ran, fun code first others leaves => ?_⟩
  obtain ⟨leaving, beforeLeaving, awayLeaving, fitsLeaving⟩ := plain_modes first last fitsLast leaves.plain
  have fitsLeft := leaving.leave_alternate_fits fitsLeaving
  obtain ⟨left, behindLeaving, _⟩ := TerminalScreen.safe_fold others TerminalScreen.setPrivate
    (fun set _ screen fits => screen.set_private_mode_safe set.1 set.2 fits) leaving.leaveAlternateScreen fitsLeft
  have out := switch_modes last code false first others leaves leaving beforeLeaving
  rw [if_neg Bool.false_ne_true] at out
  change _ = (others.foldlM TerminalScreen.setPrivate leaving.leaveAlternateScreen).map TerminalScreen.executed at out
  rw [behindLeaving] at out
  exact ⟨leaving, left, beforeLeaving, behindLeaving, out, restores leaving (awayLeaving.trans awayLast)⟩

-- The sequence that leaves the alternate screen stops wrapping before it does.
theorem alternate_screen_restores_letter : ∃ leaving : TerminalScreen,
    leaving.lines = [[[0x62], space, space]] ∧ leaving.wrap = false ∧ Restores leaving.leaveAlternateScreen enteringScreen := by
  have enters : Switches enteringScreen 0x68 true [] [] := ⟨⟨1049, by decide, rfl⟩, by simp⟩
  obtain ⟨entry, entered, before, into, later⟩ := alternate_screen_restores enteringScreen entering_reached rfl 0x68 [] [] enters
  obtain rfl : enteringScreen = entry := Option.some.inj before
  have blank : enteringScreen.consume 0x68 = some blankScreen := by decide
  obtain rfl : blankScreen = entered := Option.some.inj (blank.symm.trans into)
  obtain ⟨last, ran, out⟩ := later lettersAfter (by decide)
  have read : lettersAfter.foldlM TerminalScreen.step blankScreen = some leavingScreen := by decide
  obtain rfl : leavingScreen = last := Option.some.inj (read.symm.trans ran)
  have leaves : Switches leavingScreen 0x6c false [(false, 7)] [] := ⟨⟨47, by decide, rfl⟩, by simp [TerminalScreen.alternateMode]⟩
  obtain ⟨leaving, left, unwrapped, _, _, restores⟩ := out 0x6c [(false, 7)] [] leaves
  have set : ([(false, 7)] : List (Bool × Int)).foldlM TerminalScreen.setPrivate leavingScreen =
      some { leavingScreen with wrap := false, wrapPending := false } := by decide
  obtain rfl : { leavingScreen with wrap := false, wrapPending := false } = leaving := Option.some.inj (set.symm.trans unwrapped)
  exact ⟨_, rfl, rfl, restores⟩

end Vacps.Terminal
