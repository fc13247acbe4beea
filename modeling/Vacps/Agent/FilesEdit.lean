import Vacps.Agent.PatchSteps
import Vacps.Agent.Replacements
import Vacps.Library.Utf8

/- script/src/runtime/files.ts: filesEdit on the bytes of a file. The text in between has lost a byte order mark
   when the shared decoder drops it, and String#replace reads patterns in the new text. -/
set_option autoImplicit false

namespace Vacps.Files

open Library Library.Utf16 Library.Utf8

structure FilesEditInput where
  path : Units
  oldText : Units
  newText : Units
  replaceAll : Option Bool
  expectedSha256 : Option Units

def FilesEditInput.all (input : FilesEditInput) : Bool := input.replaceAll.getD false

structure EditResult where
  path : Path
  replacement_count : Nat
  before_sha256 : Units
  after_sha256 : Units
  bytes_changed : Nat

inductive EditThrown where
  | thrown (error : Thrown)
  -- With current_sha256.
  | versionConflict (error : RuntimeError) (current : Units)

abbrev Editing (α : Type) : Type := EStateM EditThrown PatchState α

def call {α : Type} (program : Patching α) : Editing α := EStateM.adaptExcept EditThrown.thrown program

def normalizeHash (hash : Units) : Units := if startsWith hash "sha256:" then after hash "sha256:" else hash

def resultBytes (currentBytes replacements : Nat) (oldText newText : Units) : Int :=
  currentBytes - replacements * (encode oldText).length + replacements * (encode newText).length

structure Edit where
  replacements : Nat
  size : Int
  next : Units

-- What is computed between the read and the write.
def editText (input : FilesEditInput) (currentBytes : Nat) (text : Units) : Except RuntimeError Edit :=
  let count := countOccurrences text input.oldText
  if count = 0 then .error (runtimeError "old_text was not found." "old_text_not_found" 409)
  else if 1 < count && !input.all then
    .error { runtimeError "old_text is not unique; set replace_all=true to replace all." "old_text_not_unique" 409 with
      extra := some ("match_count", count) }
  else
    let replacements := if input.all then count else 1
    let size := resultBytes currentBytes replacements input.oldText input.newText
    if (WHOLE_FILE_MAX_BYTES : Int) < size then .error (fileTooLargeError WHOLE_FILE_MAX_BYTES)
    else
      .ok ⟨replacements, size, if input.all then input.newText.intercalate (split text input.oldText)
        else replaceFirst text input.oldText input.newText⟩

def checkOldText (input : FilesEditInput) : Except RuntimeError Unit :=
  if input.oldText = [] then .error (runtimeError "old_text must not be empty." "validation_error" 400) else .ok ()

def checkVersion (input : FilesEditInput) (beforeHash : Units) : Editing Unit :=
  if input.expectedSha256.any fun expected => expected ≠ [] && normalizeHash expected ≠ beforeHash then
    throw (.versionConflict (runtimeError "The file changed after it was read." "file_version_conflict" 409) beforeHash)
  else pure ()

def filesEdit (sha256Hex : Units ⊕ List UInt8 → Units) (faults : Nat → Option Fault) (input : FilesEditInput) :
    Editing EditResult := do
  let path ← call (lift (requireAbsolutePath input.path))
  call (lift (checkOldText input))
  let current ← call (readWholeBytesFile faults path WHOLE_FILE_MAX_BYTES)
  let beforeHash := sha256Hex (.inr current)
  checkVersion input beforeHash
  let text ← call (decodeWholeFileUtf8 current)
  let edit ← call (lift (editText input current.length text))
  call (writeTextFile faults path edit.next)
  pure ⟨path, edit.replacements, beforeHash, sha256Hex (.inl edit.next), (edit.size - current.length).natAbs⟩

-- The old text replaced in the bytes, and nothing else; the size is the one that was checked.
def Spliced (bytes stored : List UInt8) (input : FilesEditInput) (result : EditResult) : Prop :=
  (∃ oldBytes newBytes, decode oldBytes = some input.oldText ∧ decode newBytes = some input.newText ∧
    if input.all then ∃ pieces, Pieces oldBytes bytes pieces ∧ stored = newBytes.intercalate pieces
    else ∃ front back, bytes = front ++ oldBytes ++ back ∧ StandsOnce oldBytes bytes front ∧ stored = front ++ newBytes ++ back) ∧
  (stored.length : Int) = resultBytes bytes.length result.replacement_count input.oldText input.newText

-- What the decoder leaves of a text.
def unmarked (bomSeen : Bool) (text : Units) : Units := if !bomSeen && text.head? = some 0xFEFF then text.drop 1 else text

-- What an edit has to meet in the text of the file.
def EditFits (bomSeen : Bool) (bytes : List UInt8) (input : FilesEditInput) : Prop :=
  ∃ whole, decode bytes = some whole ∧ (∃ oldBytes, decode oldBytes = some input.oldText) ∧
    (∃ newBytes, decode newBytes = some input.newText) ∧
    if input.all then unmarked bomSeen whole = whole
    else ∃ front back, whole = front ++ input.oldText ++ back ∧ StandsOnce input.oldText whole front ∧
      unmarked bomSeen front ++ substitution input.oldText (unmarked bomSeen front) back input.newText = front ++ input.newText

section runs

theorem call_returned {α : Type} (program : Patching α) (state after : PatchState) (value : α)
    (returned : call program state = .ok value after) : program state = .ok value after := by
  change EStateM.adaptExcept EditThrown.thrown program state = .ok value after at returned
  rw [EStateM.adaptExcept] at returned
  cases outcome : program state with
  | ok other last =>
      rw [outcome] at returned
      cases returned
      rfl
  | error error last =>
      rw [outcome] at returned
      cases returned

theorem lift_returned {α : Type} (checked : Except RuntimeError α) (state after : PatchState) (value : α)
    (returned : call (lift checked) state = .ok value after) : checked = .ok value ∧ after = state := by
  have inside := call_returned _ state after value returned
  cases checked with
  | error error => cases inside
  | ok other =>
      cases inside
      exact ⟨rfl, rfl⟩

theorem version_returned (input : FilesEditInput) (hash : Units) (state after : PatchState)
    (returned : checkVersion input hash state = .ok () after) : after = state := by
  rw [checkVersion] at returned
  split at returned
  · cases returned
  · cases returned
    rfl

theorem decode_returned (bytes : List UInt8) (state after : PatchState) (text : Units)
    (returned : decodeWholeFileUtf8 bytes state = .ok text after) :
    decode (content state.bomSeen bytes) = some text ∧ after.tree = state.tree := by
  rw [decodeWholeFileUtf8] at returned
  split at returned
  · rename_i read decoded
    cases returned
    exact ⟨decoded, rfl⟩
  · cases returned

-- What an edit that returns has read, computed and written.
theorem edit_returned (sha256Hex : Units ⊕ List UInt8 → Units) (faults : Nat → Option Fault) (input : FilesEditInput)
    (state after : PatchState) (result : EditResult) (edited : filesEdit sha256Hex faults input state = .ok result after)
    (path : Path) (bytes : List UInt8) (located : requireAbsolutePath input.path = .ok path)
    (file : state.tree.node path = some (.file bytes)) :
    input.oldText ≠ [] ∧ ∃ text edit, decode (content state.bomSeen bytes) = some text ∧
      editText input bytes.length text = .ok edit ∧ result.replacement_count = edit.replacements ∧
      after.tree.node path = some (.file (encode edit.next)) := by
  obtain ⟨there, first, placed, later⟩ := bind_returned _ _ _ _ _ edited
  obtain ⟨same, rfl⟩ := lift_returned _ _ _ _ placed
  obtain rfl : path = there := Except.ok.inj (located.symm.trans same)
  obtain ⟨_, second, checked, reading⟩ := bind_returned _ _ _ _ _ later
  obtain ⟨some_, rfl⟩ := lift_returned _ _ _ _ checked
  obtain ⟨current, third, read, versioned⟩ := bind_returned _ _ _ _ _ reading
  obtain ⟨quiet, seen, found, _⟩ := ends_returned _ _ _ _ _ _ (read_whole_ends faults path WHOLE_FILE_MAX_BYTES _)
    (call_returned _ _ _ _ read)
  obtain rfl : bytes = current := Node.file.inj (Option.some.inj (file.symm.trans found))
  obtain ⟨_, fourth, version, decoding⟩ := bind_returned _ _ _ _ _ versioned
  obtain rfl := version_returned _ _ _ _ version
  obtain ⟨text, fifth, read_, computing⟩ := bind_returned _ _ _ _ _ decoding
  obtain ⟨decoded, _⟩ := decode_returned _ _ _ _ (call_returned _ _ _ _ read_)
  obtain ⟨edit, sixth, computes, writing⟩ := bind_returned _ _ _ _ _ computing
  obtain ⟨computed, rfl⟩ := lift_returned _ _ _ _ computes
  obtain ⟨_, last, wrote, done⟩ := bind_returned _ _ _ _ _ writing
  have puts := ends_returned _ _ _ _ _ _ (write_text_ends faults path edit.next _) (call_returned _ _ _ _ wrote)
  cases done
  refine ⟨?_, text, edit, seen ▸ decoded, computed, rfl, puts.here⟩
  intro empty
  rw [checkOldText, if_pos empty] at some_
  cases some_

end runs

section marks

def mark : Char := Char.ofNat 0xFEFF

def withoutMark (bomSeen : Bool) (letters : List Char) : List Char :=
  if !bomSeen && letters.head? = some mark then letters.drop 1 else letters

theorem starts_word {Unit_ : Type} (code : Code Char Unit_) (letter : Char) (letters : List Char) :
    code.word letter <+: code.words letters ↔ letters.head? = some letter := by
  rw [← code.first_iff]
  cases letters with
  | nil =>
      rw [Code.words_nil, code.first_nil]
      exact iff_of_false (fun none_ => by cases none_) fun none_ => by cases none_
  | cons head rest => rw [Code.words_cons, code.first_word, List.head?_cons]

theorem content_words (bomSeen : Bool) (letters : List Char) :
    content bomSeen (utf8Code.words letters) = utf8Code.words (withoutMark bomSeen letters) := by
  have word : utf8Code.word mark = byteOrderMark := by decide
  have starts : byteOrderMark.isPrefixOf (utf8Code.words letters) = decide (letters.head? = some mark) := by
    rw [Bool.eq_iff_iff, List.isPrefixOf_iff_prefix, decide_eq_true_iff, ← word]
    exact starts_word utf8Code mark letters
  rw [content, starts, withoutMark]
  split
  · rename_i marked
    rw [Bool.and_eq_true, decide_eq_true_iff] at marked
    obtain ⟨rest, rfl⟩ := List.head?_eq_some_iff.mp marked.2
    rw [Code.words_cons, word]
    rfl
  · rfl

theorem unmarked_words (bomSeen : Bool) (letters : List Char) :
    unmarked bomSeen (utf16Code.words letters) = utf16Code.words (withoutMark bomSeen letters) := by
  have word : utf16Code.word mark = [0xFEFF] := by decide
  have starts : (utf16Code.words letters).head? = some 0xFEFF ↔ letters.head? = some mark := by
    rw [← starts_word utf16Code mark letters, word, List.head?_eq_some_iff]
    exact ⟨fun ⟨rest, same⟩ => ⟨rest, same.symm⟩, fun ⟨rest, same⟩ => ⟨rest, same.symm⟩⟩
  rw [unmarked, withoutMark]
  by_cases marked : letters.head? = some mark
  · rw [decide_eq_true marked, decide_eq_true (starts.mpr marked)]
    obtain ⟨rest, rfl⟩ := List.head?_eq_some_iff.mp marked
    rw [Code.words_cons, word]
    split <;> rfl
  · rw [decide_eq_false marked, decide_eq_false fun also => marked (starts.mp also)]
    split <;> rename_i dropped
    · simp at dropped
    · simp

-- Where the text stands once, it stands once behind the dropped mark, if it still stands there at all.
theorem unmarked_place (bomSeen : Bool) (old whole front back place : Units) (once : StandsOnce old whole front)
    (cut : whole = front ++ old ++ back) (found : StandsAt old (unmarked bomSeen whole) place) :
    StandsOnce old (unmarked bomSeen whole) (unmarked bomSeen front) ∧
      unmarked bomSeen whole = unmarked bomSeen front ++ old ++ back := by
  by_cases dropped : (!bomSeen && whole.head? = some 0xFEFF) = true
  · have seen : (!bomSeen) = true := (Bool.and_eq_true_iff.mp dropped).1
    obtain ⟨rest, starts⟩ := List.head?_eq_some_iff.mp (of_decide_eq_true (Bool.and_eq_true_iff.mp dropped).2)
    have left : unmarked bomSeen whole = rest := by rw [unmarked, if_pos dropped, starts]; rfl
    rw [left] at found ⊢
    have later : ∀ other, StandsAt old rest other → front = 0xFEFF :: other := by
      intro other stands
      refine (once.2 _ ?_).symm
      rw [starts]
      exact List.cons_prefix_cons.mpr ⟨rfl, stands⟩
    have placed := later place found
    have kept : unmarked bomSeen front = place := by rw [unmarked, placed, List.head?_cons, decide_eq_true rfl, seen]; rfl
    rw [starts, placed] at cut
    rw [kept]
    exact ⟨⟨found, fun other stands => (List.cons.inj ((later other stands).symm.trans placed)).2⟩, (List.cons.inj cut).2⟩
  · have same : unmarked bomSeen whole = whole := if_neg dropped
    have kept : unmarked bomSeen front = front := by
      refine if_neg fun also => dropped ?_
      rw [Bool.and_eq_true, decide_eq_true_iff] at also ⊢
      obtain ⟨rest, starts⟩ := List.head?_eq_some_iff.mp also.2
      exact ⟨also.1, by rw [cut, starts]; rfl⟩
    rw [same, kept]
    exact ⟨once, cut⟩

end marks

section patterns

theorem substitution_plain (matched before behind rest : Units) (unit : UInt16) (plain : unit ≠ 36) :
    substitution matched before behind (unit :: rest) = unit :: substitution matched before behind rest := by
  cases rest with
  | nil => rfl
  | cons next rest => rw [substitution, if_pos plain]

theorem substitution_dollar (matched before behind rest : Units) (next : UInt16) :
    substitution matched before behind (36 :: next :: rest) =
      if next = 36 then 36 :: substitution matched before behind rest
      else if next = 38 then matched ++ substitution matched before behind rest
      else if next = 96 then before ++ substitution matched before behind rest
      else if next = 39 then behind ++ substitution matched before behind rest
      else 36 :: substitution matched before behind (next :: rest) := by
  rw [substitution, if_neg (by simp)]

theorem half_plain (unit : UInt16) (half : isHigh unit = true ∨ isLow unit = true) :
    unit ≠ 36 ∧ unit ≠ 38 ∧ unit ≠ 96 ∧ unit ≠ 39 := by
  refine ⟨?_, ?_, ?_, ?_⟩ <;> rintro rfl <;> revert half <;> decide

-- The expansion of patterns puts together texts with whole letters.
theorem substitution_words (matched before behind new : List Char) :
    ∃ letters, substitution (utf16Code.words matched) (utf16Code.words before) (utf16Code.words behind) (utf16Code.words new) =
      utf16Code.words letters := by
  generalize size : new.length = n
  induction n using Nat.strongRecOn generalizing new with
  | ind n ih =>
      cases new with
      | nil => exact ⟨[], rfl⟩
      | cons letter rest =>
          obtain ⟨letters, expanded⟩ := ih rest.length (by rw [← size]; exact Nat.lt_succ_self _) rest rfl
          have word : ∀ letter, utf16Code.word letter = charUnits letter := fun _ => rfl
          rcases char_form letter with ⟨unit, same, high, low, _⟩ | ⟨first, second, same, high, low, _⟩
          · by_cases dollar : unit = 36
            · subst dollar
              have front : ∀ letters, utf16Code.words (letter :: letters) = 36 :: utf16Code.words letters := by
                intro letters
                rw [Code.words_cons, word, same]
                rfl
              rw [front]
              cases rest with
              | nil => exact ⟨[letter], (front []).symm⟩
              | cons next later =>
                  have smaller : later.length < n := by rw [← size, List.length_cons, List.length_cons]; omega
                  obtain ⟨others, behind_⟩ := ih later.length smaller later rfl
                  have passed : ∀ unit tail, utf16Code.words (next :: later) = unit :: tail →
                      unit ≠ 36 ∧ unit ≠ 38 ∧ unit ≠ 96 ∧ unit ≠ 39 → ∃ letters, substitution (utf16Code.words matched)
                        (utf16Code.words before) (utf16Code.words behind) (36 :: unit :: tail) = utf16Code.words letters := by
                    rintro unit tail starts ⟨dollar, ampersand, backtick, quote⟩
                    rw [substitution_dollar, if_neg dollar, if_neg ampersand, if_neg backtick, if_neg quote, ← starts, expanded]
                    exact ⟨letter :: letters, (front letters).symm⟩
                  rcases char_form next with ⟨unit, here, _, _, _⟩ | ⟨first, second, here, isHigh_, _, _⟩
                  · have starts : utf16Code.words (next :: later) = unit :: utf16Code.words later := by
                      rw [Code.words_cons, word, here]
                      rfl
                    rw [starts]
                    by_cases plain : unit ≠ 36 ∧ unit ≠ 38 ∧ unit ≠ 96 ∧ unit ≠ 39
                    · exact passed unit _ starts plain
                    · rw [substitution_dollar, behind_]
                      split
                      · exact ⟨letter :: others, (front others).symm⟩
                      · split
                        · exact ⟨matched ++ others, (Code.words_append ..).symm⟩
                        · split
                          · exact ⟨before ++ others, (Code.words_append ..).symm⟩
                          · split
                            · exact ⟨behind ++ others, (Code.words_append ..).symm⟩
                            · exact absurd ⟨‹_›, ‹_›, ‹_›, ‹_›⟩ plain
                  · have starts : utf16Code.words (next :: later) = first :: second :: utf16Code.words later := by
                      rw [Code.words_cons, word, here]
                      rfl
                    rw [starts]
                    exact passed first _ starts (half_plain first (Or.inl isHigh_))
            · refine ⟨letter :: letters, ?_⟩
              rw [Code.words_cons, Code.words_cons, word, same, List.singleton_append,
                substitution_plain _ _ _ _ unit dollar, expanded]
              rfl
          · refine ⟨letter :: letters, ?_⟩
            rw [Code.words_cons, Code.words_cons, word, same, List.cons_append, List.singleton_append,
              substitution_plain _ _ _ _ first (half_plain first (Or.inl high)).1,
              substitution_plain _ _ _ _ second (half_plain second (Or.inr low)).1, expanded]
            rfl

end patterns

section splices

theorem edit_computed (input : FilesEditInput) (currentBytes : Nat) (text : Units) (edit : Edit)
    (computed : editText input currentBytes text = .ok edit) :
    countOccurrences text input.oldText ≠ 0 ∧
      edit.replacements = (if input.all then countOccurrences text input.oldText else 1) ∧
      edit.next = if input.all then input.newText.intercalate (split text input.oldText)
        else replaceFirst text input.oldText input.newText := by
  unfold editText at computed
  dsimp only at computed
  split at computed
  · cases computed
  · rename_i found
    split at computed
    · cases computed
    · by_cases large : (WHOLE_FILE_MAX_BYTES : Int) < resultBytes currentBytes
          (if input.all then countOccurrences text input.oldText else 1) input.oldText input.newText
      · rw [if_pos large] at computed
        cases computed
      · rw [if_neg large] at computed
        rw [← Except.ok.inj computed]
        exact ⟨found, rfl, rfl⟩

theorem counted_place (text old : Units) (some_ : old ≠ []) (found : countOccurrences text old ≠ 0) :
    ∃ place, StandsAt old text place := by
  apply Classical.byContradiction
  intro none_
  have counted := count_pieces old some_ text [text] (.last text fun place stands => none_ ⟨place, stands⟩)
  rw [List.length_singleton] at counted
  omega

theorem mark_dropped (bomSeen : Bool) (letters : List Char) :
    withoutMark bomSeen letters = letters ∨ letters = mark :: withoutMark bomSeen letters := by
  rw [withoutMark]
  split
  · rename_i dropped
    rw [Bool.and_eq_true, decide_eq_true_iff] at dropped
    obtain ⟨rest, rfl⟩ := List.head?_eq_some_iff.mp dropped.2
    exact Or.inr rfl
  · exact Or.inl rfl

variable (bomSeen : Bool) (whole old new : List Char)

theorem replaced_letters (some_ : old ≠ []) (place : Units)
    (found : StandsAt (utf16Code.words old) (utf16Code.words (withoutMark bomSeen whole)) place) (before behind : List Char)
    (cut : whole = before ++ old ++ behind) (once : StandsOnce old whole before) :
    replaceFirst (utf16Code.words (withoutMark bomSeen whole)) (utf16Code.words old) (utf16Code.words new) =
      unmarked bomSeen (utf16Code.words before) ++ substitution (utf16Code.words old)
        (unmarked bomSeen (utf16Code.words before)) (utf16Code.words behind) (utf16Code.words new) ++ utf16Code.words behind := by
  have nonempty : utf16Code.words old ≠ [] := fun empty => some_ (utf16Code.words_injective old [] empty)
  rw [← unmarked_words] at found ⊢
  obtain ⟨here, apart⟩ := unmarked_place bomSeen _ _ _ _ place ((utf16Code.once_words old whole before some_).mpr once)
    (by rw [cut, Code.words_append, Code.words_append]) found
  exact replace_place _ _ _ _ _ nonempty here apart

theorem one_spliced (some_ : old ≠ []) (place : Units)
    (found : StandsAt (utf16Code.words old) (utf16Code.words (withoutMark bomSeen whole)) place) :
    (∃ front back, utf8Code.words whole = front ++ utf8Code.words old ++ back ∧
        StandsOnce (utf8Code.words old) (utf8Code.words whole) front ∧
        encode (replaceFirst (utf16Code.words (withoutMark bomSeen whole)) (utf16Code.words old) (utf16Code.words new)) =
          front ++ utf8Code.words new ++ back) ↔
      ∃ front back, utf16Code.words whole = front ++ utf16Code.words old ++ back ∧
        StandsOnce (utf16Code.words old) (utf16Code.words whole) front ∧
        unmarked bomSeen front ++ substitution (utf16Code.words old) (unmarked bomSeen front) back (utf16Code.words new) =
          front ++ utf16Code.words new := by
  refine ⟨?_, ?_⟩
  · rintro ⟨front, back, cut, once, stored⟩
    obtain ⟨before, behind, apart, rfl, rfl⟩ := utf8Code.words_place old whole front back some_ cut
    have here := (utf8Code.once_words old whole before some_).mp once
    refine ⟨utf16Code.words before, utf16Code.words behind, by rw [apart, Code.words_append, Code.words_append],
      (utf16Code.once_words old whole before some_).mpr here, ?_⟩
    rw [replaced_letters bomSeen whole old new some_ place found before behind apart here, unmarked_words] at stored
    obtain ⟨expanded, pattern⟩ := substitution_words old (withoutMark bomSeen before) behind new
    rw [unmarked_words]
    rw [pattern, ← Code.words_append, ← Code.words_append, encode_words, ← Code.words_append, ← Code.words_append] at stored
    have letters := List.append_cancel_right (utf8Code.words_injective _ _ stored)
    rw [pattern, ← Code.words_append, letters, Code.words_append]
  · rintro ⟨front, back, cut, once, literal⟩
    obtain ⟨before, behind, apart, rfl, rfl⟩ := utf16Code.words_place old whole front back some_ cut
    have here := (utf16Code.once_words old whole before some_).mp once
    refine ⟨utf8Code.words before, utf8Code.words behind, by rw [apart, Code.words_append, Code.words_append],
      (utf8Code.once_words old whole before some_).mpr here, ?_⟩
    rw [replaced_letters bomSeen whole old new some_ place found before behind apart here, literal, ← Code.words_append,
      ← Code.words_append, encode_words, Code.words_append, Code.words_append]

-- How long a text is after its pieces have been joined by another.
theorem joined_length {α : Type} (needle other text : List α) (pieces : List (List α)) (count : Nat)
    (cut : Pieces needle text pieces) (counted : pieces.length = count + 1) :
    (other.intercalate pieces).length + count * needle.length = text.length + count * other.length := by
  have some_ := pieces_some needle text pieces cut
  have first := intercalate_length pieces some_ needle
  have second := intercalate_length pieces some_ other
  rw [pieces_join needle text pieces cut, counted, Nat.succ_mul] at first
  rw [counted, Nat.succ_mul] at second
  omega

theorem all_spliced (some_ : old ≠ []) (stored : List UInt8)
    (wrote : stored = encode ((utf16Code.words new).intercalate
      (split (utf16Code.words (withoutMark bomSeen whole)) (utf16Code.words old)))) :
    ((∃ pieces, Pieces (utf8Code.words old) (utf8Code.words whole) pieces ∧ stored = (utf8Code.words new).intercalate pieces) ∧
        (stored.length : Int) = resultBytes (utf8Code.words whole).length
          (countOccurrences (utf16Code.words (withoutMark bomSeen whole)) (utf16Code.words old)) (utf16Code.words old)
          (utf16Code.words new)) ↔
      unmarked bomSeen (utf16Code.words whole) = utf16Code.words whole := by
  have nonempty : utf16Code.words old ≠ [] := fun empty => some_ (utf16Code.words_injective old [] empty)
  obtain ⟨pieces, cut⟩ := pieces_total old some_ (withoutMark bomSeen whole)
  have units_ := utf16Code.pieces_words old _ pieces some_ cut
  have bytes := utf8Code.pieces_words old _ pieces some_ cut
  have counted := count_pieces _ nonempty _ _ units_
  rw [split_pieces _ nonempty _ _ units_, ← Code.words_intercalate, encode_words, Code.words_intercalate] at wrote
  rw [List.length_map] at counted
  have size := joined_length _ (utf8Code.words new) _ _ _ bytes (by rw [List.length_map]; exact counted)
  rw [← wrote] at size
  rw [unmarked_words, resultBytes, encode_words, encode_words]
  refine ⟨?_, ?_⟩
  · rintro ⟨_, same⟩
    rcases mark_dropped bomSeen whole with kept | dropped
    · rw [kept]
    · have three : (utf8Code.word mark).length = 3 := by decide
      have longer := congrArg (fun letters => (utf8Code.words letters).length) dropped
      simp only [Code.words_cons, List.length_append, three] at longer
      generalize countOccurrences _ _ = count at size same
      omega
  · intro kept
    have letters := utf16Code.words_injective _ _ kept
    rw [letters] at bytes size ⊢
    refine ⟨⟨_, bytes, wrote⟩, ?_⟩
    generalize countOccurrences _ _ = count at size
    omega

theorem content_letters (bytes : List UInt8) (text : Units) (decoded : decode (content bomSeen bytes) = some text) :
    ∃ letters, bytes = utf8Code.words letters ∧ text = utf16Code.words (withoutMark bomSeen letters) := by
  obtain ⟨kept, same, rfl⟩ := (decode_letters _ _).mp decoded
  have letters : ∃ letters, bytes = utf8Code.words letters := by
    rw [content] at same
    split at same
    · rename_i dropped
      rw [Bool.and_eq_true, List.isPrefixOf_iff_prefix] at dropped
      obtain ⟨rest, rfl⟩ := dropped.2
      have word : utf8Code.word mark = byteOrderMark := by decide
      refine ⟨mark :: kept, ?_⟩
      rw [Code.words_cons, word, ← same]
      rfl
    · exact ⟨kept, same⟩
  obtain ⟨letters, rfl⟩ := letters
  rw [content_words] at same
  exact ⟨letters, rfl, by rw [utf8Code.words_injective _ _ same]⟩

theorem spliced_words (bytes stored : List UInt8) (input : FilesEditInput) (result : EditResult)
    (olds : input.oldText = utf16Code.words old) (news : input.newText = utf16Code.words new) :
    Spliced bytes stored input result ↔
      (if input.all then ∃ pieces, Pieces (utf8Code.words old) bytes pieces ∧ stored = (utf8Code.words new).intercalate pieces
      else ∃ front back, bytes = front ++ utf8Code.words old ++ back ∧ StandsOnce (utf8Code.words old) bytes front ∧
        stored = front ++ utf8Code.words new ++ back) ∧
      (stored.length : Int) = resultBytes bytes.length result.replacement_count input.oldText input.newText := by
  rw [Spliced, olds, news]
  refine and_congr_left fun _ => ⟨?_, fun spliced => ⟨_, _, (decode_words _ old).mpr rfl, (decode_words _ new).mpr rfl, spliced⟩⟩
  rintro ⟨oldBytes, newBytes, oldSame, newSame, spliced⟩
  rw [(decode_words _ old).mp oldSame, (decode_words _ new).mp newSame] at spliced
  exact spliced

theorem fits_words (input : FilesEditInput) (olds : input.oldText = utf16Code.words old)
    (news : input.newText = utf16Code.words new) :
    EditFits bomSeen (utf8Code.words whole) input ↔
      if input.all then unmarked bomSeen (utf16Code.words whole) = utf16Code.words whole
      else ∃ front back, utf16Code.words whole = front ++ utf16Code.words old ++ back ∧
        StandsOnce (utf16Code.words old) (utf16Code.words whole) front ∧
        unmarked bomSeen front ++ substitution (utf16Code.words old) (unmarked bomSeen front) back (utf16Code.words new) =
          front ++ utf16Code.words new := by
  rw [EditFits, olds, news]
  refine ⟨?_, fun fits => ⟨_, (decode_words _ whole).mpr rfl, ⟨_, (decode_words _ old).mpr rfl⟩, ⟨_, (decode_words _ new).mpr rfl⟩, fits⟩⟩
  rintro ⟨text, decoded, _, _, fits⟩
  rw [(decode_words _ whole).mpr rfl] at decoded
  rw [Option.some.inj decoded]
  exact fits

-- The size that was checked is that of the bytes with the old text replaced once.
theorem one_size (bytes stored front back : List UInt8) (cut : bytes = front ++ utf8Code.words old ++ back)
    (wrote : stored = front ++ utf8Code.words new ++ back) :
    (stored.length : Int) = resultBytes bytes.length 1 (utf16Code.words old) (utf16Code.words new) := by
  rw [cut, wrote, resultBytes, encode_words, encode_words]
  simp only [List.length_append]
  omega

end splices

theorem edit_splices_iff (sha256Hex : Units ⊕ List UInt8 → Units) (faults : Nat → Option Fault) (input : FilesEditInput)
    (state after : PatchState) (result : EditResult) (edited : filesEdit sha256Hex faults input state = .ok result after)
    (path : Path) (bytes : List UInt8) (located : requireAbsolutePath input.path = .ok path)
    (file : state.tree.node path = some (.file bytes)) :
    (∃ stored, after.tree.node path = some (.file stored) ∧ Spliced bytes stored input result) ↔
      EditFits state.bomSeen bytes input := by
  obtain ⟨given, text, edit, decoded, computed, replaced, here⟩ :=
    edit_returned sha256Hex faults input state after result edited path bytes located file
  obtain ⟨found, replacements, next⟩ := edit_computed input bytes.length text edit computed
  obtain ⟨place, stands⟩ := counted_place text input.oldText given found
  obtain ⟨whole, rfl, rfl⟩ := content_letters state.bomSeen bytes text decoded
  have stored_ : (∃ stored, after.tree.node path = some (.file stored) ∧ Spliced (utf8Code.words whole) stored input result) ↔
      Spliced (utf8Code.words whole) (encode edit.next) input result := by
    refine ⟨?_, fun spliced => ⟨_, here, spliced⟩⟩
    rintro ⟨stored, there, spliced⟩
    rw [here] at there
    rw [Node.file.inj (Option.some.inj there)]
    exact spliced
  rw [stored_]
  by_cases forms : (∃ old, input.oldText = utf16Code.words old) ∧ ∃ new, input.newText = utf16Code.words new
  · obtain ⟨⟨old, olds⟩, new, news⟩ := forms
    have some_ : old ≠ [] := by
      rintro rfl
      exact given olds
    rw [spliced_words old new _ _ input result olds news, fits_words state.bomSeen whole old new input olds news, replaced,
      replacements, next, olds, news]
    rw [olds] at stands
    cases input.all with
    | true => exact all_spliced state.bomSeen whole old new some_ _ rfl
    | false =>
        have splices := one_spliced state.bomSeen whole old new some_ place stands
        refine Iff.trans ⟨And.left, fun spliced => ⟨spliced, ?_⟩⟩ splices
        obtain ⟨front, back, cut, _, wrote⟩ := spliced
        exact one_size old new _ _ front back cut wrote
  · refine iff_of_false ?_ ?_
    · rintro ⟨⟨oldBytes, newBytes, oldSame, newSame, _⟩, _⟩
      obtain ⟨old, _, olds⟩ := (decode_letters _ _).mp oldSame
      obtain ⟨new, _, news⟩ := (decode_letters _ _).mp newSame
      exact forms ⟨⟨old, olds⟩, new, news⟩
    · rintro ⟨_, _, ⟨_, oldSame⟩, ⟨_, newSame⟩, _⟩
      obtain ⟨old, _, olds⟩ := (decode_letters _ _).mp oldSame
      obtain ⟨new, _, news⟩ := (decode_letters _ _).mp newSame
      exact forms ⟨⟨old, olds⟩, new, news⟩

def editing (oldText newText : String) : FilesEditInput := ⟨units "/tmp/a", units oldText, units newText, none, none⟩

-- What an edit of /tmp/a that returns leaves there.
def editLeaves (oldText newText : String) (state : PatchState) : Option (Node (List UInt8)) :=
  match filesEdit (fun _ => []) noFaults (editing oldText newText) state with
  | .ok _ after => after.tree.node (inWorkspace "a")
  | .error _ _ => none

theorem edit_leaves (oldText newText : String) (state : PatchState) (node : Node (List UInt8))
    (left : editLeaves oldText newText state = some node) :
    ∃ result after, filesEdit (fun _ => []) noFaults (editing oldText newText) state = .ok result after ∧
      after.tree.node (inWorkspace "a") = some node := by
  rw [editLeaves] at left
  split at left
  · rename_i result after edited
    exact ⟨result, after, edited, left⟩
  · cases left

theorem edit_splices_six :
    ∃ result after, filesEdit (fun _ => []) noFaults (editing "one" "six") (freshWith [("a", one)]) = .ok result after ∧
      ∃ stored, after.tree.node (inWorkspace "a") = some (.file stored) ∧ Spliced one stored (editing "one" "six") result := by
  obtain ⟨result, after, edited, _⟩ := edit_leaves "one" "six" (freshWith [("a", one)]) (.file [115, 105, 120, 10]) (by decide)
  have fits : EditFits false one (editing "one" "six") :=
    ⟨units "one\n", by decide, ⟨[111, 110, 101], by decide⟩, ⟨[115, 105, 120], by decide⟩,
      [], [10], by decide, once_among _ _ _ (by decide) (by decide), by decide⟩
  exact ⟨result, after, edited, (edit_splices_iff (fun _ => []) noFaults (editing "one" "six") (freshWith [("a", one)]) after result
    edited (inWorkspace "a") one (by decide) (by decide)).mpr fits⟩

-- New text with two dollar signs is stored with one, and the file is shorter than the size that was checked.
theorem dollar_stored :
    editLeaves "one" "$$" (freshWith [("a", one)]) = some (.file [36, 10]) ∧
      ¬∀ (sha256Hex : Units ⊕ List UInt8 → Units) (faults : Nat → Option Fault) (input : FilesEditInput)
        (state after : PatchState) (result : EditResult), filesEdit sha256Hex faults input state = .ok result after →
        ∀ (path : Path) (bytes : List UInt8), requireAbsolutePath input.path = .ok path →
          state.tree.node path = some (.file bytes) →
          ∃ stored, after.tree.node path = some (.file stored) ∧ Spliced bytes stored input result := by
  have left : editLeaves "one" "$$" (freshWith [("a", one)]) = some (.file [36, 10]) := by decide
  refine ⟨left, fun always => ?_⟩
  obtain ⟨result, after, edited, here⟩ := edit_leaves _ _ _ _ left
  obtain ⟨stored, there, ⟨oldBytes, newBytes, olds, news, spliced⟩, _⟩ :=
    always _ _ _ _ _ _ edited (inWorkspace "a") one (by decide) (by decide)
  rw [here] at there
  cases there
  obtain ⟨front, back, cut, _, wrote⟩ := spliced
  have oldSize := congrArg List.length (encode_decode oldBytes _ olds)
  have newSize := congrArg List.length (encode_decode newBytes _ news)
  have three : (encode (units "one")).length = 3 := by decide
  have two : (encode (units "$$")).length = 2 := by decide
  have before := congrArg List.length cut
  have behind := congrArg List.length wrote
  rw [editing, three] at oldSize
  rw [editing, two] at newSize
  simp only [List.length_append, one, List.length_cons, List.length_nil] at before behind
  omega

end Vacps.Files
