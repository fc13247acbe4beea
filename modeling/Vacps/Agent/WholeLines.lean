import Vacps.Agent.TerminalScreen
import Vacps.Library.Pairs

/- A wide character takes two cells of a line, the second of them empty. What each edit of a line does
   to the characters it cuts or writes over. -/
set_option autoImplicit false

namespace Vacps.Terminal

open Library Library.JsArray

def isWide (cell : Cell) : Bool := cell.any fun character => codePointWidth character = 2

abbrev WholeLine (line : Line) : Prop := Paired isWide List.isEmpty line

-- The column before which a character is cut in two.
def MidCharacter (line : Line) (column : Int) : Prop := at? line column = some []

instance (line : Line) (column : Int) : Decidable (MidCharacter line column) := inferInstanceAs (Decidable (_ = _))

theorem space_plain : isWide space = false ∧ space.isEmpty = false := by decide

theorem wide_filled (cell : Cell) (wide : isWide cell = true) : cell.isEmpty = false := by
  cases cell with
  | nil => exact nomatch wide
  | cons character marks => rfl

theorem clean_border (line : Line) (column : Int) (low : 0 ≤ column) (clean : ¬MidCharacter line column) :
    joined List.isEmpty line column.toNat = false := by
  unfold MidCharacter at? at clean
  rw [if_pos low] at clean
  rw [joined]
  cases read : (line : List Cell)[column.toNat]? with
  | none => rfl
  | some cell =>
      rw [read] at clean
      cases cell with
      | nil => exact absurd rfl clean
      | cons character marks => rfl

theorem mid_border (line : Line) (column : Int) (low : 0 ≤ column) (mid : MidCharacter line column) :
    joined List.isEmpty line column.toNat = true := by
  unfold MidCharacter at? at mid
  rw [if_pos low] at mid
  rw [joined, mid]
  rfl

theorem whole_spans (line : Line) (whole : WholeLine line) : Spans isWide List.isEmpty false line false :=
  paired_spans isWide List.isEmpty line whole

theorem spans_whole (line : Line) (spans : Spans isWide List.isEmpty false line false) : WholeLine line :=
  spans_paired isWide List.isEmpty line spans

theorem blank_spans (count : Nat) : Spans isWide List.isEmpty false (List.replicate count space) false :=
  spans_replicate isWide List.isEmpty space space_plain count

theorem blank_whole (count : Nat) : WholeLine (List.replicate count space) := spans_whole _ (blank_spans count)

theorem fill_whole (line : Line) (start stop : Int) (whole : WholeLine line) (low : 0 ≤ start) (order : start ≤ stop)
    (high : stop ≤ line.length) (clean : ¬MidCharacter line start ∧ ¬MidCharacter line stop) :
    WholeLine (fill line space start stop) := by
  rw [fill_pieces line space start stop low order high]
  apply spans_whole
  exact spans_replace isWide List.isEmpty line _ _ _ (whole_spans line whole) (blank_spans _)
    ⟨clean_border line start low clean.1, clean_border line stop (by omega) clean.2⟩

theorem start_clean (line : Line) (whole : WholeLine line) : ¬MidCharacter line 0 := by
  intro mid
  have border := mid_border line 0 (le_refl _) mid
  have first := spans_left isWide List.isEmpty false line (whole_spans line whole)
  exact absurd (first.trans border) (by decide)

theorem end_clean (line : Line) (column : Int) (past : (line.length : Int) ≤ column) : ¬MidCharacter line column := by
  intro mid
  unfold MidCharacter at? at mid
  rw [if_pos (by omega), List.getElem?_eq_none (by omega)] at mid
  exact nomatch mid

theorem fill_all_whole (line : Line) (whole : WholeLine line) : WholeLine (fill line space 0 line.length) :=
  fill_whole line 0 line.length whole (le_refl _) (by omega) (le_refl _) ⟨start_clean line whole, end_clean line _ (le_refl _)⟩

theorem take_clean (line : Line) (column stop : Int) (clean : ¬MidCharacter line column) :
    ¬MidCharacter (line.take stop.toNat) column := by
  intro mid
  apply clean
  unfold MidCharacter at? at mid ⊢
  by_cases low : 0 ≤ column
  · rw [if_pos low] at mid ⊢
    rw [List.getElem?_take] at mid
    split at mid
    · exact mid
    · exact nomatch mid
  · rw [if_neg low] at mid
    exact nomatch mid

theorem take_whole (line : Line) (stop : Int) (whole : WholeLine line) (low : 0 ≤ stop) (clean : ¬MidCharacter line stop) :
    WholeLine (line.take stop.toNat) := by
  have before := (spans_cut isWide List.isEmpty line stop.toNat (whole_spans line whole)).1
  rw [clean_border line stop low clean] at before
  exact spans_whole _ before

theorem append_blank_whole (line : Line) (count : Nat) (whole : WholeLine line) :
    WholeLine (line ++ List.replicate count space) :=
  spans_whole _ ((spans_append isWide List.isEmpty false false _ _).mpr ⟨false, whole_spans line whole, blank_spans count⟩)

theorem copy_line_whole (columns : Int) (line : Line) (whole : WholeLine line) (low : 0 ≤ columns)
    (clean : ¬MidCharacter line columns) : WholeLine (copyLine columns line) :=
  append_blank_whole _ _ (take_whole line columns whole low clean)

namespace TerminalScreen

-- The blanks go in at the column, and the line loses what they push past its end.
theorem insert_whole (columns column amount : Int) (line edited : Line) (whole : WholeLine line)
    (width : (line.length : Int) = columns) (low : 0 ≤ column) (positive : 0 ≤ amount) (high : column + amount ≤ columns)
    (clean : ¬MidCharacter line column ∧ ¬MidCharacter line (columns - amount))
    (result : insertBlanks columns column amount line = some edited) : WholeLine edited := by
  have kept := take_whole line (columns - amount) whole (by omega) clean.2
  have border := clean_border _ column low (take_clean line column (columns - amount) clean.1)
  have spans := spans_replace isWide List.isEmpty _ (List.replicate amount.toNat space) column.toNat column.toNat
    (whole_spans _ kept) (blank_spans _) ⟨border, border⟩
  have shape : insertBlanks columns column amount line = some ((line.take (columns - amount).toNat).take column.toNat ++
      List.replicate amount.toNat space ++ (line.take (columns - amount).toNat).drop column.toNat) := by
    have pieces := splice_pieces line (List.replicate amount.toNat space) column 0 low (le_refl _) (by omega)
    rw [insertBlanks, new_array amount space positive]
    simp only [bind, Option.bind, pieces, setLength]
    rw [if_pos ⟨by omega, by
      simp only [List.length_append, List.length_take, List.length_replicate, List.length_drop]
      omega⟩]
    have cut := take_inserted line (List.replicate amount.toNat space) column.toNat columns.toNat (by omega)
      (by rw [List.length_replicate]; omega)
    rw [List.length_replicate] at cut
    have less : columns.toNat - amount.toNat = (columns - amount).toNat := by omega
    rw [less] at cut
    rw [Int.add_zero, cut]
  rw [shape] at result
  rw [← Option.some.inj result]
  exact spans_whole _ spans

theorem delete_whole (columns column amount : Int) (line edited : Line) (whole : WholeLine line)
    (width : (line.length : Int) = columns) (low : 0 ≤ column) (positive : 0 ≤ amount) (high : column + amount ≤ columns)
    (agree : MidCharacter line column ↔ MidCharacter line (column + amount))
    (result : deleteCells column amount line = some edited) : WholeLine edited := by
  have borders : joined List.isEmpty line column.toNat = joined List.isEmpty line (column + amount).toNat := by
    by_cases mid : MidCharacter line column
    · rw [mid_border line column low mid, mid_border line _ (by omega) (agree.mp mid)]
    · rw [clean_border line column low mid, clean_border line _ (by omega) fun other => mid (agree.mpr other)]
  have spans := (spans_join isWide List.isEmpty line line column.toNat (column + amount).toNat (whole_spans line whole)
    (whole_spans line whole)).mpr borders
  have pieces := splice_pieces line [] column amount low positive (by omega)
  rw [deleteCells, new_array amount space positive] at result
  simp only [bind, Option.bind, pieces, List.append_nil] at result
  rw [← Option.some.inj result]
  exact append_blank_whole _ _ (spans_whole _ spans)

-- What is behind a cell that was cleared does not begin with half a character.
def mended : Line → Line
  | [] :: rest => space :: rest
  | line => line

theorem mended_length (line : Line) : (mended line).length = line.length := by
  cases line with
  | nil => rfl
  | cons cell rest => cases cell <;> rfl

theorem mended_spans (left : Bool) (line : Line) (spans : Spans isWide List.isEmpty left line false) :
    Spans isWide List.isEmpty false (mended line) false := by
  cases line with
  | nil => rfl
  | cons cell rest =>
      cases cell with
      | nil => exact ⟨rfl, spans.2⟩
      | cons character marks => exact ⟨rfl, spans.2⟩

theorem clear_right (columns : Int) (before after : Line) (cell : Cell) (filled : cell ≠ [])
    (width : (before.length : Int) + 1 + after.length = columns) :
    clearLineCell columns before.length (before ++ cell :: after) = some (before ++ space :: mended after) := by
  have kept : clearBefore before.length (before ++ cell :: after) = some (before ++ cell :: after) := by
    simp only [clearBefore, at_split, bind, Option.bind]
    exact if_neg fun half => filled half.1
  have cleared : clearAfter columns before.length (before ++ cell :: after) = some (before ++ cell :: mended after) := by
    simp only [clearAfter, at_split, bind, Option.bind]
    cases after with
    | nil =>
        simp only [List.length_nil] at width
        rw [if_neg fun within => absurd within.2 (by omega)]
        rfl
    | cons next rest =>
        simp only [List.length_cons] at width
        have shape : before ++ cell :: next :: rest = (before ++ [cell]) ++ next :: rest := by simp
        have place : (before.length : Int) + 1 = (before ++ [cell]).length := by simp
        rw [if_pos ⟨filled, by omega⟩, shape, place, at_split]
        dsimp only
        cases next with
        | nil =>
            rw [if_pos rfl, set_split]
            simp [mended]
        | cons character marks =>
            rw [if_neg (List.cons_ne_nil _ _)]
            simp [mended]
  simp only [clearLineCell, kept, cleared, bind, Option.bind]
  exact set_split before (mended after) cell space

theorem clear_left (columns : Int) (before after : Line) (lead : Cell) :
    clearLineCell columns (before ++ [lead]).length ((before ++ [lead]) ++ [] :: after) =
      some ((before ++ [space]) ++ space :: after) := by
  have previous : (((before ++ [lead]).length : Nat) : Int) - 1 = before.length := by
    rw [List.length_append, List.length_singleton]
    omega
  have same : ((before ++ [lead]).length : Int) = ((before ++ [space]).length : Nat) := by simp
  have repaired : clearBefore (before ++ [lead]).length ((before ++ [lead]) ++ [] :: after) =
      some ((before ++ [space]) ++ [] :: after) := by
    simp only [clearBefore, at_split, bind, Option.bind]
    rw [if_pos ⟨trivial, by rw [List.length_append, List.length_singleton]; omega⟩, previous, List.append_assoc,
      List.singleton_append, set_split]
    simp
  have kept : clearAfter columns (before ++ [lead]).length ((before ++ [space]) ++ [] :: after) =
      some ((before ++ [space]) ++ [] :: after) := by
    rw [same]
    simp only [clearAfter, at_split, bind, Option.bind]
    exact if_neg fun filled => filled.1 rfl
  simp only [clearLineCell, repaired, kept, bind, Option.bind]
  rw [same]
  exact set_split (before ++ [space]) after [] space

-- Clearing a cell leaves whole stretches on both sides of it.
theorem clear_whole (columns column : Int) (line : Line) (whole : WholeLine line) (width : (line.length : Int) = columns)
    (inside : 0 ≤ column ∧ column < columns) :
    ∃ before after, clearLineCell columns column line = some (before ++ space :: after) ∧ (before.length : Int) = column ∧
      (before.length : Int) + 1 + after.length = columns ∧ Spans isWide List.isEmpty false before false ∧
      Spans isWide List.isEmpty false after false := by
  obtain ⟨before, cell, after, rfl, place⟩ := split_at line column inside.1 (by omega)
  obtain ⟨middle, left, closed, right⟩ := (spans_append isWide List.isEmpty false false _ _).mp (whole_spans _ whole)
  rw [List.length_append, List.length_cons] at width
  cases cell with
  | cons character marks =>
      refine ⟨before, mended after, ?_, place, ?_, ?_, mended_spans _ after right⟩
      · rw [← place]
        exact clear_right columns before after _ (List.cons_ne_nil _ _) (by omega)
      · rw [mended_length]
        omega
      · rw [← closed] at left
        exact left
  | nil =>
      rcases List.eq_nil_or_concat before with rfl | ⟨earlier, lead, rfl⟩
      · exact absurd (left.trans closed.symm) (by decide)
      · rw [List.concat_eq_append] at left place width ⊢
        obtain ⟨border, first, bounded, opened⟩ := (spans_append isWide List.isEmpty false _ _ _).mp left
        have outside : border = false := bounded.symm.trans (wide_filled lead (opened.trans closed.symm))
        rw [outside] at first
        refine ⟨earlier ++ [space], after, ?_, ?_, ?_, ?_, right⟩
        · rw [← place]
          exact clear_left columns earlier after lead
        · rw [List.length_append, List.length_singleton] at place ⊢
          exact place
        · rw [List.length_append, List.length_singleton] at width ⊢
          omega
        · exact (spans_append isWide List.isEmpty false _ _ _).mpr ⟨false, first, rfl, rfl⟩

-- What writeCharacter does to the line it writes on.
def placeCharacter (columns column width : Int) (cell : Cell) (line : Line) : Option Line := do
  let line ← clearLineCell columns column line
  let line ← setAt line column cell
  if width = 2 ∧ column + 1 < columns then do
    let line ← clearLineCell columns (column + 1) line
    setAt line (column + 1) []
  else some line

theorem place_whole (columns column width : Int) (cell : Cell) (line edited : Line) (whole : WholeLine line)
    (size : (line.length : Int) = columns) (inside : 0 ≤ column ∧ column < columns) (filled : cell ≠ [])
    (wide : isWide cell = true ↔ width = 2) (room : width = 2 → column + 1 < columns)
    (result : placeCharacter columns column width cell line = some edited) : WholeLine edited := by
  obtain ⟨before, after, cleared, rfl, total, left, right⟩ := clear_whole columns column line whole size inside
  have closed : cell.isEmpty = false := by
    cases cell with
    | nil => exact absurd rfl filled
    | cons character marks => rfl
  simp only [placeCharacter, cleared, bind, Option.bind, set_split] at result
  apply spans_whole
  by_cases double : width = 2
  · have opened := wide.mpr double
    have within := room double
    cases after with
    | nil =>
        simp only [List.length_nil] at total
        omega
    | cons next rest =>
        have shape : before ++ cell :: next :: rest = (before ++ [cell]) ++ next :: rest := by simp
        have place : (before.length : Int) + 1 = (before ++ [cell]).length := by simp
        have whole_next : next ≠ [] := by
          rintro rfl
          exact nomatch right.1
        simp only [List.length_cons] at total
        have mended_rest := clear_right columns (before ++ [cell]) rest next whole_next (by omega)
        rw [if_pos ⟨double, within⟩, shape, place, mended_rest] at result
        dsimp only at result
        rw [set_split] at result
        rw [← Option.some.inj result, List.append_assoc]
        refine (spans_append isWide List.isEmpty false false _ _).mpr ⟨false, left, closed, ?_⟩
        exact ⟨opened.symm, mended_spans _ rest right.2⟩
  · rw [if_neg fun trailing => double trailing.1] at result
    rw [← Option.some.inj result]
    have narrow : isWide cell = false := Bool.eq_false_iff.mpr fun wideCell => double (wide.mp wideCell)
    refine (spans_append isWide List.isEmpty false false _ _).mpr ⟨false, left, closed, ?_⟩
    rw [narrow]
    exact right

theorem marked_whole (before after : Line) (cell : Cell) (character : Nat) (filled : cell ≠ [])
    (mark : codePointWidth character = 0) (whole : WholeLine (before ++ cell :: after)) :
    WholeLine (before ++ (cell ++ [character]) :: after) := by
  obtain ⟨middle, left, closed, right⟩ := (spans_append isWide List.isEmpty false false _ _).mp (whole_spans _ whole)
  have narrow : isWide [character] = false := by simp [isWide, mark]
  have same : isWide (cell ++ [character]) = isWide cell := by
    rw [isWide, List.any_append, ← isWide, ← isWide, narrow, Bool.or_false]
  apply spans_whole
  refine (spans_append isWide List.isEmpty false false _ _).mpr ⟨middle, left, ?_, ?_⟩
  · rw [← closed]
    cases cell with
    | nil => exact absurd rfl filled
    | cons first marks => rfl
  · rw [same]
    exact right

end TerminalScreen

end Vacps.Terminal
