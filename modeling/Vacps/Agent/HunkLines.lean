import Vacps.Agent.Replacements
import Vacps.Library.Segments

/- script/src/runtime/files.ts: applyHunks puts the rows of a hunk into one block and replaces that block as a
   text. When that replaces lines. -/
set_option autoImplicit false

namespace Vacps.Files

open Library Library.Utf16

def lines (text : Units) : List Units := text.splitOn newline

-- The old rows are a run of lines, the new ones stand in their place, and the block is in the text once.
def ReplacesLines (text : Units) (hunk : List Units) (result : Units) : Prop :=
  (∃ before behind, lines text = before ++ oldLines hunk ++ behind ∧ result = join (before ++ newLines hunk ++ behind)) ∧
    ∃ front, StandsOnce (join (oldLines hunk)) text front

-- What a hunk has to meet in the text in front of it.
def MatchesLines (text : Units) (hunk : List Units) : Prop :=
  ∃ front back, text = front ++ join (oldLines hunk) ++ back ∧ StandsOnce (join (oldLines hunk)) text front ∧
    (front = [] ∨ front.getLast? = some newline) ∧ (back = [] ∨ back.head? = some newline) ∧
    (∀ row ∈ oldLines hunk, newline ∉ row) ∧
    substitution (join (oldLines hunk)) front back (join (newLines hunk)) = join (newLines hunk) ∧
    (newLines hunk = [] → front = [] ∧ back = [])

-- Each hunk is applied to what the one before has left.
def ReplacedInTurn : Units → List (List Units) → Units → Prop
  | text, [], final => final = text
  | text, hunk :: rest, final =>
      ∃ next, applyHunk text hunk = .ok next ∧ ReplacesLines text hunk next ∧ ReplacedInTurn next rest final

def MatchesInTurn : Units → List (List Units) → Prop
  | _, [] => True
  | text, hunk :: rest => MatchesLines text hunk ∧ ∀ next, applyHunk text hunk = .ok next → MatchesInTurn next rest

section joined

-- Lines with the end of each.
def ended (names : List Units) : Units := names.flatMap (· ++ [newline])

theorem ended_cons (name : Units) (rest : List Units) : ended (name :: rest) = name ++ newline :: ended rest := by
  rw [ended, List.flatMap_cons, List.append_assoc]
  rfl

theorem join_cons (name : Units) (rest : List Units) (some_ : rest ≠ []) : join (name :: rest) = name ++ newline :: join rest := by
  rw [join, List.intercalate_cons_of_ne_nil some_, List.append_assoc]
  rfl

theorem join_ended (before middle : List Units) (some_ : middle ≠ []) :
    join (before ++ middle) = ended before ++ join middle := by
  induction before with
  | nil => rfl
  | cons name rest ih =>
      rw [List.cons_append, join_cons name _ (by simp [some_]), ih, ended_cons]
      simp

theorem join_rooted (middle behind : List Units) (some_ : middle ≠ []) :
    join (middle ++ behind) = join middle ++ rooted newline behind := by
  have whole := rooted_join newline (middle ++ behind) (by simp [some_])
  rw [rooted_append, rooted_join newline middle some_, List.cons_append] at whole
  exact (List.cons.inj whole).2.symm

theorem join_around (before middle behind : List Units) (some_ : middle ≠ []) :
    join (before ++ middle ++ behind) = ended before ++ join middle ++ rooted newline behind := by
  rw [List.append_assoc, join_ended before _ (by simp [some_]), join_rooted middle behind some_, List.append_assoc]

theorem ended_length (names : List Units) : (ended names).length = (rooted newline names).length := by
  induction names with
  | nil => rfl
  | cons name rest ih =>
      rw [ended_cons, rooted_cons, List.length_append, List.length_cons, List.length_cons, List.length_append, ih]
      omega

-- Without rows between them, the lines before and behind have one line end less than the block leaves there.
theorem join_apart (before behind : List Units) (same : join (before ++ behind) = ended before ++ rooted newline behind) :
    before = [] ∧ behind = [] := by
  by_cases none_ : before ++ behind = []
  · exact List.append_eq_nil_iff.mp none_
  · have whole := congrArg List.length (rooted_join newline (before ++ behind) none_)
    rw [List.length_cons, ← join, same, rooted_append, List.length_append, List.length_append, ended_length] at whole
    omega

theorem lines_join (names : List Units) (some_ : names ≠ []) (plain : ∀ name ∈ names, newline ∉ name) :
    lines (join names) = names := List.splitOn_intercalate newline plain some_

theorem join_lines (text : Units) : join (lines text) = text := List.intercalate_splitOn newline

theorem lines_plain (text name : Units) (member : name ∈ lines text) : newline ∉ name := split_plain newline text name member

theorem lines_some (text : Units) : lines text ≠ [] := List.splitOn_ne_nil newline text

theorem ended_lines (text : Units) : ended (lines text) = text ++ [newline] := by
  have first := join_ended (lines text) [[]] (by simp)
  have second := join_rooted (lines text) [[]] (lines_some text)
  rw [first, join_lines] at second
  simpa [join] using second

theorem rooted_lines (text : Units) : rooted newline (lines text) = newline :: text := by
  rw [rooted_join newline (lines text) (lines_some text), ← join, join_lines]

theorem ended_bounded (names : List Units) : ended names = [] ∨ (ended names).getLast? = some newline := by
  rcases List.eq_nil_or_concat names with rfl | ⟨rest, name, rfl⟩
  · exact Or.inl rfl
  · right
    simp [ended]

theorem front_lines (front : Units) (bounded : front = [] ∨ front.getLast? = some newline) :
    ∃ names, front = ended names ∧ ∀ name ∈ names, newline ∉ name := by
  rcases bounded with rfl | ends
  · exact ⟨[], rfl, by simp⟩
  · obtain ⟨text, rfl⟩ := List.getLast?_eq_some_iff.mp ends
    exact ⟨lines text, (ended_lines text).symm, lines_plain text⟩

theorem back_lines (back : Units) (bounded : back = [] ∨ back.head? = some newline) :
    ∃ names, back = rooted newline names ∧ ∀ name ∈ names, newline ∉ name := by
  rcases bounded with rfl | starts
  · exact ⟨[], rfl, by simp⟩
  · obtain ⟨text, rfl⟩ := List.head?_eq_some_iff.mp starts
    exact ⟨lines text, (rooted_lines text).symm, lines_plain text⟩

end joined

section hunks

theorem hunk_applied (text : Units) (hunk : List Units) (next : Units) (applied : applyHunk text hunk = .ok next) :
    join (oldLines hunk) ≠ [] ∧ next = replaceFirst text (join (oldLines hunk)) (join (newLines hunk)) := by
  unfold applyHunk at applied
  dsimp only at applied
  split at applied
  · cases applied
  · rename_i some_
    split at applied
    · cases applied
    · split at applied
      · cases applied
      · exact ⟨some_, (Except.ok.inj applied).symm⟩

theorem hunk_matches (text : Units) (hunk : List Units) (next : Units) (applied : applyHunk text hunk = .ok next)
    (replaces : ReplacesLines text hunk next) : MatchesLines text hunk := by
  obtain ⟨some_, result⟩ := hunk_applied text hunk next applied
  obtain ⟨⟨before, behind, rows, joined⟩, front, once⟩ := replaces
  have olds : oldLines hunk ≠ [] := by
    intro none_
    exact some_ (by rw [none_]; rfl)
  have cut : text = ended before ++ join (oldLines hunk) ++ rooted newline behind := by
    rw [← join_around before _ behind olds, ← rows, join_lines]
  have place : front = ended before := (once.2 (ended before) ⟨_, cut.symm⟩).symm
  subst place
  rw [replace_place text _ _ _ _ some_ once cut] at result
  rw [result] at joined
  refine ⟨ended before, rooted newline behind, cut, once, ended_bounded before, rooted_bounded newline behind, ?_, ?_, ?_⟩
  · exact fun row member => lines_plain text row (rows ▸ by simp [member])
  · by_cases news : newLines hunk = []
    · rw [news]
      rfl
    · rw [join_around before _ behind news, List.append_cancel_right_eq, List.append_cancel_left_eq] at joined
      exact joined
  · intro news
    rw [news, List.append_nil] at joined
    obtain ⟨rfl, rfl⟩ := join_apart before behind (joined.symm.trans (by simp [join, substitution]))
    exact ⟨rfl, rfl⟩

theorem hunk_replaces (text : Units) (hunk : List Units) (next : Units) (applied : applyHunk text hunk = .ok next)
    (fits : MatchesLines text hunk) : ReplacesLines text hunk next := by
  obtain ⟨some_, result⟩ := hunk_applied text hunk next applied
  obtain ⟨front, back, cut, once, ends, starts, plain, literal, alone⟩ := fits
  have olds : oldLines hunk ≠ [] := by
    intro none_
    exact some_ (by rw [none_]; rfl)
  obtain ⟨before, rfl, plainBefore⟩ := front_lines front ends
  obtain ⟨behind, rfl, plainBehind⟩ := back_lines back starts
  refine ⟨⟨before, behind, ?_, ?_⟩, _, once⟩
  · rw [cut, ← join_around before _ behind olds]
    refine lines_join _ (by simp [olds]) fun name member => ?_
    rcases List.mem_append.mp member with earlier | later
    · rcases List.mem_append.mp earlier with first | row
      · exact plainBefore name first
      · exact plain name row
    · exact plainBehind name later
  · rw [result, replace_place text _ _ _ _ some_ once cut, literal]
    by_cases news : newLines hunk = []
    · obtain ⟨noneBefore, noneBehind⟩ := alone news
      have empty : before = [] ∧ behind = [] := ⟨by cases before <;> simp_all [ended], rooted_empty newline behind noneBehind⟩
      rw [empty.1, empty.2, news]
      rfl
    · rw [join_around before _ behind news]

end hunks

-- The hunks of a patch have rows without line ends.
theorem hunks_of_rows (current : Option (List Units)) (rows : List Units) (hunk : List Units)
    (member : hunk ∈ hunksOf current rows) (row : Units) (inside : row ∈ hunk) :
    row ∈ rows ∨ ∃ started ∈ current, row ∈ started := by
  induction rows generalizing current with
  | nil =>
      right
      exact ⟨hunk, by simpa [hunksOf] using member, inside⟩
  | cons next rest ih =>
      rw [hunksOf] at member
      split at member
      · rcases List.mem_append.mp member with finished | later
        · exact Or.inr ⟨hunk, by simpa using finished, inside⟩
        · rcases ih (some []) later with within | ⟨started, same, held⟩
          · exact Or.inl (List.mem_cons_of_mem _ within)
          · cases same
            cases held
      · rcases ih _ member with within | ⟨started, same, held⟩
        · exact Or.inl (List.mem_cons_of_mem _ within)
        · obtain ⟨earlier, was, rfl⟩ := Option.map_eq_some_iff.mp same
          rcases List.mem_append.mp held with old | new
          · exact Or.inr ⟨earlier, was, old⟩
          · rw [List.mem_singleton.mp new]
            exact Or.inl List.mem_cons_self

theorem parsed_rows (rows : List Units) (operation : PatchOperation) (member : operation ∈ parseLines rows)
    (hunks : List (List Units)) (update : operation.action = .update hunks) (hunk : List Units) (inside : hunk ∈ hunks)
    (row : Units) (held : row ∈ hunk) : row ∈ rows := by
  induction rows with
  | nil => cases member
  | cons line rest ih =>
      have later : operation ∈ parseLines rest → row ∈ line :: rest := fun found => List.mem_cons_of_mem _ (ih found)
      rw [parseLines] at member
      split at member
      · rcases List.mem_cons.mp member with rfl | found
        · cases update
        · exact later found
      · split at member
        · rcases List.mem_cons.mp member with rfl | found
          · cases update
          · exact later found
        · split at member
          · rcases List.mem_cons.mp member with rfl | found
            · cases update
              rcases hunks_of_rows none _ hunk inside row held with within | ⟨started, none_, _⟩
              · exact List.mem_cons_of_mem _ ((List.takeWhile_sublist _).subset within)
              · cases none_
            · exact later found
          · exact later member

theorem parsed_old_lines (patch : Units) (operation : PatchOperation) (member : operation ∈ parsePatch patch)
    (hunks : List (List Units)) (update : operation.action = .update hunks) (hunk : List Units) (inside : hunk ∈ hunks) :
    ∀ row ∈ oldLines hunk, newline ∉ row := by
  intro row held
  obtain ⟨whole, kept, rfl⟩ := List.mem_map.mp held
  have line := parsed_rows _ operation member hunks update hunk inside whole (List.mem_of_mem_filter kept)
  exact fun broken => lines_plain (unixLines patch) whole line (List.mem_of_mem_drop broken)

theorem hunks_replace_lines_iff (original : Units) (hunks : List (List Units)) (final : Units)
    (applied : applyHunks original hunks = .ok final) :
    ReplacedInTurn original hunks final ↔ MatchesInTurn original hunks := by
  induction hunks generalizing original with
  | nil => exact iff_of_true (Except.ok.inj applied).symm trivial
  | cons hunk rest ih =>
      rw [applyHunks, List.foldlM_cons] at applied
      obtain ⟨next, here, later⟩ := returned_bind _ _ _ applied
      refine ⟨?_, ?_⟩
      · rintro ⟨also, done, replaces, inTurn⟩
        refine ⟨hunk_matches original hunk also done replaces, fun other same => ?_⟩
        rw [here] at done same
        cases done
        cases same
        exact (ih next later).mp inTurn
      · rintro ⟨fits, inTurn⟩
        exact ⟨next, here, hunk_replaces original hunk next here fits, (ih next later).mpr (inTurn next here)⟩

theorem hunks_replace_lines_one :
    ReplacedInTurn (units "a\nb\n") [[units " a", units "-b", units "+c"]] (units "a\nc\n") := by
  have fits : MatchesLines (units "a\nb\n") [units " a", units "-b", units "+c"] :=
    ⟨[], [newline], by decide, once_among _ _ _ (by decide) (by decide), by decide, by decide, by decide, by decide, by decide⟩
  exact (hunks_replace_lines_iff (units "a\nb\n") [[units " a", units "-b", units "+c"]] (units "a\nc\n") (by decide)).mpr
    ⟨fits, fun _ _ => trivial⟩

-- An added line with two dollar signs is written with one.
theorem dollar_lost :
    applyHunks (units "a\n") [[units "-a", units "+$$5"]] = .ok (units "$5\n") ∧
      ¬∀ (original : Units) (hunks : List (List Units)) (final : Units), applyHunks original hunks = .ok final →
        ReplacedInTurn original hunks final := by
  have applied : applyHunks (units "a\n") [[units "-a", units "+$$5"]] = .ok (units "$5\n") := by decide
  refine ⟨applied, fun always => ?_⟩
  obtain ⟨next, here, replaces, _⟩ := always _ _ _ applied
  obtain ⟨front, back, _, _, _, _, _, literal, _⟩ := hunk_matches _ _ next here replaces
  have news : join (newLines [units "-a", units "+$$5"]) = [36, 36, 53] := by decide
  rw [news] at literal
  have shorter : ∀ matched : Units, substitution matched front back [36, 36, 53] = [36, 53] := fun matched => rfl
  rw [shorter] at literal
  exact absurd literal (by decide)

end Vacps.Files
