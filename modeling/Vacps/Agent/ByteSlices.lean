import Vacps.Agent.LogPages
import Vacps.Native.SimdutfReference

/- script/src/util/utf8.ts: where utf8PrefixEnd and utf8ByteSlice cut, against the borders between characters. -/
set_option autoImplicit false

namespace Vacps.Server

open Library Library.Utf8 Vacps.Native Vacps.TerminalSessions

section borders

-- Going back from a place inside the text ends at the last border up to it.
theorem lead_below (letters : List Char) (place : Nat) (inside : place < (utf8Code.words letters).length) :
    BorderBelow utf8Width letters place (leadAt (utf8Code.words letters) place) := by
  rw [words_extent] at inside
  obtain ⟨front, char, rest, rfl, after, before⟩ := borders_around utf8Width letters place inside
  have lead := lead_char (utf8Code.words front) (utf8Code.words rest) char (place - extent utf8Width front) (by omega)
  rw [words_extent, Nat.add_sub_cancel' after] at lead
  have text : utf8Code.words (front ++ char :: rest) = utf8Code.words front ++ utf8Code.word char ++ utf8Code.words rest := by
    rw [Code.words_append, Code.words_cons, List.append_assoc]
  rw [text, lead]
  exact below_inside utf8Width front char rest place after before

-- The bytes behind a place inside a character that still belong to it.
theorem trail_char (front rest : List Char) (char : Char) (offset : Nat) (inside : 0 < offset ∧ offset < utf8Width char) :
    leadingContinuationBytes ((utf8Code.words (front ++ char :: rest)).drop (extent utf8Width front + offset)) =
      utf8Width char - offset := by
  obtain ⟨head, tail, same, outer, inner⟩ := utf8Code.shape char
  obtain ⟨passed, rfl⟩ := Nat.exists_eq_succ_of_ne_zero (Nat.ne_of_gt inside.1)
  have length : utf8Width char = tail.length + 1 := by rw [utf8Width, same, List.length_cons]
  have behind : (utf8Code.words (front ++ char :: rest)).drop (extent utf8Width front + (passed + 1)) =
      tail.drop passed ++ utf8Code.words rest := by
    rw [Code.words_append, ← words_extent, List.drop_length_add_append, Code.words_cons, same, List.cons_append,
      List.drop_succ_cons, List.drop_append_of_le_length (by omega)]
  have all : ∀ byte ∈ tail.drop passed, continues byte = true := by
    intro byte member
    rw [continues_inner]
    exact inner byte (List.mem_of_mem_drop member)
  have none_ : (utf8Code.words rest).takeWhile continues = [] := List.length_eq_zero_iff.mp (leading_word rest)
  rw [behind, leadingContinuationBytes, List.takeWhile_append_of_pos all, none_, List.append_nil, List.length_drop]
  omega

end borders

section prefixEnd

theorem prefix_end_near (bytes : List UInt8) (limit : Nat) : min limit bytes.length - 3 ≤ utf8PrefixEnd bytes limit := by
  have lead := lead_le bytes (min limit bytes.length - 1)
  unfold utf8PrefixEnd
  dsimp only
  split
  · omega
  · split
    · omega
    · rename_i width known
      obtain ⟨_, small⟩ := width_four _ width known
      split <;> omega

theorem prefix_end_below (letters : List Char) (limit : Nat) :
    BorderBelow utf8Width letters limit (utf8PrefixEnd (utf8Code.words letters) limit) := by
  apply below_clipped
  unfold utf8PrefixEnd
  dsimp only
  rw [words_extent]
  by_cases nothing : min limit (extent utf8Width letters) = 0
  · rw [if_pos nothing, nothing]
    exact below_border utf8Width letters 0 (border_start utf8Width letters)
  · rw [if_neg nothing]
    generalize stopped : min limit (extent utf8Width letters) = stop at nothing ⊢
    obtain ⟨front, char, rest, rfl, after, before⟩ := borders_around utf8Width letters (stop - 1) (by omega)
    have size : (utf8Code.word char).length = utf8Width char := rfl
    have part : ((utf8Code.word char).take (stop - extent utf8Width front)).length = stop - extent utf8Width front := by
      rw [List.length_take, size]
      omega
    have text : utf8Code.words (front ++ char :: rest) = utf8Code.words front ++ (utf8Code.word char).take (stop - extent utf8Width front) ++
        ((utf8Code.word char).drop (stop - extent utf8Width front) ++ utf8Code.words rest) := by
      rw [List.append_assoc, ← List.append_assoc _ _ (utf8Code.words rest), List.take_append_drop, Code.words_append, Code.words_cons]
    have some_ : (utf8Code.word char).take (stop - extent utf8Width front) ≠ [] := by
      rw [← List.length_pos_iff, part]
      omega
    obtain ⟨lead, width⟩ := lead_word (utf8Code.words front) _ ((utf8Code.word char).drop (stop - extent utf8Width front) ++
      utf8Code.words rest) char some_ (List.take_prefix _ _)
    rw [← text, List.length_append, part, words_extent, show extent utf8Width front + (stop - extent utf8Width front) - 1 = stop - 1 by omega]
      at lead
    rw [← text, words_extent] at width
    rw [lead, width]
    dsimp only
    rw [size]
    split
    · rw [show stop = extent utf8Width front + utf8Width char by omega]
      exact below_border utf8Width _ _ (border_between utf8Width front char rest).2
    · exact below_inside utf8Width front char rest stop (by omega) (by omega)

end prefixEnd

-- The end is within three bytes of the limit, and the last border up to it where the bytes are characters.
theorem prefix_end_exact (bytes : List UInt8) (limit : Nat) :
    utf8PrefixEnd bytes limit ≤ min limit bytes.length ∧ min limit bytes.length - 3 ≤ utf8PrefixEnd bytes limit ∧
      ∀ letters, bytes = utf8Code.words letters → BorderBelow utf8Width letters limit (utf8PrefixEnd bytes limit) := by
  refine ⟨prefix_end_le bytes limit, prefix_end_near bytes limit, ?_⟩
  rintro letters rfl
  exact prefix_end_below letters limit

example : utf8PrefixEnd [0xE2, 0x82, 0xAC, 0x61] 2 = 0 ∧ utf8PrefixEnd [0xE2, 0x82, 0xAC, 0x61] 3 = 3 := by decide

section slices

variable (simdutf : Simdutf) (toCString : Units → List UInt8)

-- TextEncoder.encode of globals/text_encoder_binding.cpp with text/encoder.hpp, on what JS_ToCString makes of the string;
-- none where it throws.
def textEncode (s : Units) : Option (List UInt8) :=
  let utf8 := toCString s
  if !utf8.isEmpty && !simdutf.validate_utf8 utf8 then none else some utf8

-- JS_ToCString writes strings in UTF-8. A surrogate without its other half becomes U+FFFD or leaves bytes that are no UTF-8.
structure WritesUtf8 : Prop where
  words : ∀ letters, toCString (Utf16.utf16Code.words letters) = utf8Code.words letters
  valid : ∀ s letters, toCString s = utf8Code.words letters → letters = Utf16.chars s

deriving instance DecidableEq for ByteSlice

def byteSlice (bytes : List UInt8) (start stop : Int) : ByteSlice :=
  let totalBytes := bytes.length
  let a := (max 0 (min (toInt32 start) totalBytes)).toNat
  let b := (max (a : Int) (min (toInt32 stop) totalBytes)).toNat
  let a := if 0 < a then a + leadingContinuationBytes (bytes.drop a) else a
  let b := if b < totalBytes then leadAt bytes b else b
  { content := utf8Decode simdutf ((bytes.drop a).take (b - a))
    totalBytes := totalBytes
    start := a
    stop := b }

-- utf8ByteSlice on every string, with what encode throws.
def utf8ByteSliceOf (s : Units) (start stop : Int) : Option ByteSlice :=
  (textEncode simdutf toCString s).map fun bytes => byteSlice simdutf bytes start stop

def totalBytes (s : Units) : Nat := extent utf8Width (Utf16.chars s)

-- The letters between two borders.
structure Between (s : Units) (start stop : Nat) (letters : List (Units × Char)) : Prop where
  split : ∃ front behind, Utf16.lettered s = front ++ letters ++ behind ∧ extent utf8Width (front.map Prod.snd) = start ∧
    extent utf8Width ((front ++ letters).map Prod.snd) = stop

structure SlicedAt (s : Units) (start stop : Nat) (slice : ByteSlice) : Prop where
  ordered : slice.start ≤ slice.stop
  start : BorderAbove utf8Width (Utf16.chars s) (min start (totalBytes s)) slice.start
  border : Border utf8Width (Utf16.chars s) slice.stop
  stop : ∀ border, BorderBelow utf8Width (Utf16.chars s) (min stop (totalBytes s)) border → slice.start ≤ border →
    slice.stop = border
  content : ∃ letters, Between s slice.start slice.stop letters ∧ Utf16.decode slice.content = some (letters.flatMap Prod.fst)

def SliceExact (s : Units) (start stop : Nat) : Prop :=
  ∃ slice, utf8ByteSliceOf simdutf toCString s start stop = some slice ∧ SlicedAt s start stop slice

-- An offset as value | 0 and the total leave it.
def wrapped (value total : Nat) : Nat := (max 0 (min (toInt32 value) total)).toNat

structure Sliceable (s : Units) (start stop : Nat) : Prop where
  -- The conversion to 32 bits moves no offset over a border.
  start_kept : ∀ border, Border utf8Width (Utf16.chars s) border → wrapped start (totalBytes s) ≤ border →
    min start (totalBytes s) ≤ border
  stop_kept : ∀ border, Border utf8Width (Utf16.chars s) border → border ≤ min stop (totalBytes s) →
    border ≤ max (wrapped start (totalBytes s)) (wrapped stop (totalBytes s))
  -- The slice does not lie inside one character.
  apart : ∃ border, Border utf8Width (Utf16.chars s) border ∧ min start (totalBytes s) ≤ border ∧ border ≤ min stop (totalBytes s)
  -- There is no lone surrogate in it, and no byte order mark at its start.
  plain : ∀ first last letters, BorderAbove utf8Width (Utf16.chars s) (min start (totalBytes s)) first →
    BorderBelow utf8Width (Utf16.chars s) (min stop (totalBytes s)) last → Between s first last letters →
      (∀ letter ∈ letters, Utf16.charUnits letter.2 = letter.1) ∧ (letters.head?.map Prod.snd) ≠ some Server.byteOrderMark

theorem int_le (value : Nat) : toInt32 value ≤ value := by
  rw [toInt32, Int.bmod_def]
  split <;> omega

theorem wrapped_le (value total : Nat) : wrapped value total ≤ min value total := by
  have le := int_le value
  rw [wrapped]
  omega

-- What the two boundary adjustments make of the offsets.
def sliceStart (letters : List Char) (a : Nat) : Nat :=
  if 0 < a then a + leadingContinuationBytes ((utf8Code.words letters).drop a) else a

theorem start_above (letters : List Char) (a : Nat) (inside : a ≤ extent utf8Width letters) :
    BorderAbove utf8Width letters a (sliceStart letters a) := by
  rw [sliceStart]
  by_cases positive : 0 < a
  · rw [if_pos positive]
    by_cases whole : a = extent utf8Width letters
    · rw [whole, ← words_extent, List.drop_length]
      exact above_border utf8Width letters _ (by rw [words_extent]; exact border_stop utf8Width letters)
    · obtain ⟨front, char, rest, rfl, after, before⟩ := borders_around utf8Width letters a (by omega)
      by_cases here : a = extent utf8Width front
      · rw [here, Code.words_append, ← words_extent, List.drop_left, leading_word, words_extent]
        exact above_border utf8Width _ _ (border_between utf8Width front char rest).1
      · have trail := trail_char front rest char (a - extent utf8Width front) (by omega)
        rw [Nat.add_sub_cancel' after] at trail
        rw [trail, show a + (utf8Width char - (a - extent utf8Width front)) = extent utf8Width front + utf8Width char by omega]
        exact above_inside utf8Width front char rest a (by omega) (by omega)
  · rw [if_neg positive, Nat.eq_zero_of_not_pos positive]
    exact above_border utf8Width letters 0 (border_start utf8Width letters)

theorem stop_below (letters : List Char) (b : Nat) (inside : b ≤ extent utf8Width letters) :
    BorderBelow utf8Width letters b (cutAt letters b) := by
  rw [cutAt]
  split
  · rename_i before
    exact lead_below letters b before
  · rename_i full
    rw [words_extent] at full
    rw [show b = extent utf8Width letters by omega]
    exact below_border utf8Width letters _ (border_stop utf8Width letters)

theorem byte_slice_cuts (letters : List Char) (start stop : Nat) :
    byteSlice simdutf (utf8Code.words letters) start stop =
      let total := (utf8Code.words letters).length
      let first := sliceStart letters (wrapped start total)
      let last := cutAt letters (max (wrapped start total) (wrapped stop total))
      { content := utf8Decode simdutf (((utf8Code.words letters).drop first).take (last - first))
        totalBytes := total
        start := first
        stop := last } := by
  have second : ∀ (a : Nat) (cut : Int) (total : Nat), (max (a : Int) (min cut total)).toNat = max a (max 0 (min cut total)).toNat := by
    intro a cut total
    omega
  unfold byteSlice wrapped sliceStart cutAt
  dsimp only
  generalize toInt32 start = from32
  generalize toInt32 stop = to32
  rw [second]

-- A border of the text is a place between its letters.
theorem lettered_split (s : Units) (place : Nat) (here : Border utf8Width (Utf16.chars s) place) :
    ∃ front behind, Utf16.lettered s = front ++ behind ∧ extent utf8Width (front.map Prod.snd) = place := by
  obtain ⟨front, within, rfl⟩ := here
  rw [← Utf16.lettered_chars] at within
  refine ⟨(Utf16.lettered s).take front.length, (Utf16.lettered s).drop front.length, (List.take_append_drop _ _).symm, ?_⟩
  rw [List.map_take, ← List.prefix_iff_eq_take.mp within]

theorem between_exists (s : Units) (start stop : Nat) (ordered : start ≤ stop) (first : Border utf8Width (Utf16.chars s) start)
    (last : Border utf8Width (Utf16.chars s) stop) : ∃ letters, Between s start stop letters := by
  obtain ⟨front, rest, same, size⟩ := lettered_split s start first
  obtain ⟨whole, behind, again, sum⟩ := lettered_split s stop last
  have shorter : front <+: Utf16.lettered s := ⟨rest, same.symm⟩
  have longer : whole <+: Utf16.lettered s := ⟨behind, again.symm⟩
  have prefixes := List.prefix_or_prefix_of_prefix shorter longer
  rcases prefixes with ⟨letters, rfl⟩ | ⟨letters, rfl⟩
  · exact ⟨letters, front, behind, again, size, sum⟩
  · have nothing : extent utf8Width (letters.map Prod.snd) = 0 := by
      rw [List.map_append, extent_append] at size
      omega
    cases letters with
    | nil =>
        rw [List.append_nil] at same size
        exact ⟨[], whole, rest, by rw [List.append_nil, same], by omega, by rw [List.append_nil, sum]⟩
    | cons letter more =>
        have positive := width_pos letter.2
        rw [List.map_cons, extent_cons] at nothing
        omega

theorem between_unique (s : Units) (start stop : Nat) (letters others : List (Units × Char)) (one : Between s start stop letters)
    (other : Between s start stop others) : letters = others := by
  obtain ⟨front, behind, same, size, sum⟩ := one
  obtain ⟨first, later, again, before, whole⟩ := other
  have wide : ∀ letter ∈ Utf16.lettered s, 0 < utf8Width letter.2 := fun letter _ => width_pos letter.2
  have within : ∀ front more back : List (Units × Char), Utf16.lettered s = front ++ more ++ back →
      front <+: Utf16.lettered s ∧ front ++ more <+: Utf16.lettered s := by
    intro front more back split_
    rw [split_]
    exact ⟨by rw [List.append_assoc]; exact List.prefix_append _ _, List.prefix_append _ _⟩
  obtain ⟨one, both⟩ := within front letters behind same
  obtain ⟨other, all⟩ := within first others later again
  rw [extent_map] at size sum before whole
  have fronts := border_front (fun letter : Units × Char => utf8Width letter.2) _ front first wide one other (size.trans before.symm)
  subst fronts
  exact List.append_cancel_left (border_front (fun letter : Units × Char => utf8Width letter.2) _ _ _ wide both all (sum.trans whole.symm))

-- The content is the text between the borders, but for a byte order mark at its start.
theorem between_content (documented : Documented simdutf) (s : Units) (start stop : Nat) (letters : List (Units × Char))
    (between : Between s start stop letters) :
    utf8Decode simdutf (((utf8Code.words (Utf16.chars s)).drop start).take (stop - start)) =
      utf8Code.words (unmarked (letters.map Prod.snd)) := by
  obtain ⟨front, behind, same, size, sum⟩ := between
  have text : utf8Code.words (Utf16.chars s) = utf8Code.words (front.map Prod.snd) ++ (utf8Code.words (letters.map Prod.snd) ++
      utf8Code.words (behind.map Prod.snd)) := by
    rw [← Utf16.lettered_chars, same, List.map_append, List.map_append, Code.words_append, Code.words_append, List.append_assoc]
  rw [List.map_append, extent_append, size] at sum
  rw [← words_extent] at size sum
  rw [text, ← size, List.drop_left, size, show stop - start = (utf8Code.words (letters.map Prod.snd)).length by omega, List.take_left,
    decode_text simdutf documented]

theorem whole_units (letters : List (Units × Char)) (sizes : ∀ letter ∈ letters, (Utf16.charUnits letter.2).length = letter.1.length) :
    (∀ letter ∈ letters, Utf16.charUnits letter.2 = letter.1) ↔
      Utf16.utf16Code.words (letters.map Prod.snd) = letters.flatMap Prod.fst := by
  induction letters with
  | nil => simp
  | cons letter rest ih =>
      rw [List.forall_mem_cons] at sizes ⊢
      rw [List.map_cons, Code.words_cons, List.flatMap_cons, ih sizes.2]
      constructor
      · rintro ⟨here, later⟩
        rw [later]
        exact congrArg (· ++ _) here
      · intro same
        exact List.append_inj same sizes.1

theorem content_whole (letters : List (Units × Char)) (sizes : ∀ letter ∈ letters, (Utf16.charUnits letter.2).length = letter.1.length) :
    Utf16.decode (utf8Code.words (unmarked (letters.map Prod.snd))) = some (letters.flatMap Prod.fst) ↔
      (∀ letter ∈ letters, Utf16.charUnits letter.2 = letter.1) ∧ letters.head?.map Prod.snd ≠ some Server.byteOrderMark := by
  have read : Utf16.decode (utf8Code.words (unmarked (letters.map Prod.snd))) =
      some (Utf16.utf16Code.words (unmarked (letters.map Prod.snd))) := (Utf16.decode_words _ _).mpr rfl
  have units : (∀ letter ∈ letters, Utf16.charUnits letter.2 = letter.1) ↔
      Utf16.utf16Code.words (letters.map Prod.snd) = letters.flatMap Prod.fst := whole_units letters sizes
  have lengths := Utf16.letters_length_eq letters sizes
  rw [read, Option.some.injEq, units]
  cases letters with
  | nil => simp [unmarked]
  | cons letter rest =>
      rw [List.map_cons, unmarked, List.head?_cons, Option.map_some, ne_eq, Option.some.injEq]
      by_cases mark : letter.2 = Server.byteOrderMark
      · rw [if_pos mark]
        refine iff_of_false (fun same => ?_) fun both => both.2 mark
        have size := congrArg List.length same
        rw [List.map_cons, Code.words_cons, List.length_append] at lengths
        have some_ := List.length_pos_of_ne_nil (Utf16.utf16Code.word_some letter.2)
        omega
      · rw [if_neg mark]
        exact (and_iff_left mark).symm

variable (documented : Documented simdutf) (writes : WritesUtf8 toCString)

include documented writes in
-- What is encoded at all is the text's UTF-8.
theorem text_encoded (s : Units) (bytes : List UInt8) (encoded : textEncode simdutf toCString s = some bytes) :
    bytes = utf8Code.words (Utf16.chars s) := by
  have letters : ∃ letters, toCString s = utf8Code.words letters := by
    by_cases empty : (toCString s).isEmpty
    · exact ⟨[], List.isEmpty_iff.mp empty⟩
    · refine (documented.validate _).mp ?_
      by_contra invalid
      simp [textEncode, empty, invalid] at encoded
  obtain ⟨letters, written⟩ := letters
  have same : bytes = toCString s := by
    simp only [textEncode] at encoded
    split at encoded
    · cases encoded
    · exact (Option.some.inj encoded).symm
  rw [same, written, writes.valid s letters written]

include documented in
-- The slice of text, against the four conditions.
theorem sliced_iff (s : Units) (start stop : Nat) (ordered : start ≤ stop) :
    SlicedAt s start stop (byteSlice simdutf (utf8Code.words (Utf16.chars s)) start stop) ↔ Sliceable s start stop := by
  rw [byte_slice_cuts, words_extent]
  have whole : extent utf8Width (Utf16.chars s) = totalBytes s := rfl
  have startLe : wrapped start (totalBytes s) ≤ min start (totalBytes s) := wrapped_le start (totalBytes s)
  have stopLe : max (wrapped start (totalBytes s)) (wrapped stop (totalBytes s)) ≤ min stop (totalBytes s) := by
    have le := wrapped_le stop (totalBytes s)
    omega
  have above := start_above (Utf16.chars s) (wrapped start (totalBytes s)) (Nat.le_trans startLe (Nat.min_le_right _ _))
  have below := stop_below (Utf16.chars s) _ (Nat.le_trans stopLe (Nat.min_le_right _ _))
  have sizes : ∀ first last letters, Between s first last letters →
      ∀ letter ∈ letters, (Utf16.charUnits letter.2).length = letter.1.length := by
    intro first last letters between letter member
    obtain ⟨front, behind, same, _⟩ := between
    exact Utf16.lettered_length s letter (by simp [same, member])
  rw [whole]
  dsimp only
  generalize sliceStart (Utf16.chars s) (wrapped start (totalBytes s)) = first at above ⊢
  generalize cutAt (Utf16.chars s) (max (wrapped start (totalBytes s)) (wrapped stop (totalBytes s))) = last at below ⊢
  have startMoved := above_moved utf8Width (Utf16.chars s) _ _ first startLe above
  have stopMoved := below_moved utf8Width (Utf16.chars s) _ _ last stopLe below
  have lastLe : last ≤ min stop (totalBytes s) := by
    obtain ⟨_, within⟩ := below.1
    exact Nat.le_trans within stopLe
  constructor
  · intro sliced
    have next : BorderAbove utf8Width (Utf16.chars s) (min start (totalBytes s)) first := sliced.start
    have fits : first ≤ min stop (totalBytes s) := Nat.le_trans sliced.ordered lastLe
    obtain ⟨greatest, before⟩ := below_exists utf8Width (Utf16.chars s) (min stop (totalBytes s))
    have ends : BorderBelow utf8Width (Utf16.chars s) (min stop (totalBytes s)) last := by
      have same : last = greatest := sliced.stop greatest before (before.2 ⟨next.1.1, fits⟩)
      rw [same]
      exact before
    refine ⟨startMoved.mp next, stopMoved.mp ends, ⟨first, next.1.1, next.1.2, fits⟩, ?_⟩
    intro start' stop' letters startsAt endsAt between
    obtain rfl := next.unique startsAt
    obtain rfl := ends.unique endsAt
    obtain ⟨found, here, content⟩ := sliced.content
    obtain rfl := between_unique s _ _ found letters here between
    rw [between_content simdutf documented s _ _ found here] at content
    exact (content_whole found (sizes _ _ found here)).mp content
  · intro sliceable
    have next := startMoved.mpr sliceable.start_kept
    have ends := stopMoved.mpr sliceable.stop_kept
    obtain ⟨border, here, after, before⟩ := sliceable.apart
    have inOrder : first ≤ last := Nat.le_trans (next.2 ⟨here, after⟩) (ends.2 ⟨here, before⟩)
    obtain ⟨letters, between⟩ := between_exists s first last inOrder next.1.1 ends.1.1
    refine ⟨inOrder, next, ends.1.1, fun other greatest _ => ends.unique greatest, letters, between, ?_⟩
    rw [between_content simdutf documented s first last letters between]
    exact (content_whole letters (sizes _ _ letters between)).mpr (sliceable.plain first last letters next ends between)

theorem wrapped_small (value total : Nat) (small : value < 2 ^ 31) : wrapped value total = min value total := by
  have same : toInt32 value = value := Int.bmod_eq_of_le (by omega) (by omega)
  rw [wrapped, same]
  omega

theorem encode_writes : WritesUtf8 Utf16.encode where
  words letters := by
    have whole := Utf16.chars_words letters []
    rw [Utf16.encode_chars, ← List.append_nil (Utf16.utf16Code.words letters), whole, Utf16.chars, List.append_nil]
  valid s letters same := (utf8Code.words_injective _ _ ((Utf16.encode_chars s).symm.trans same)).symm

-- utf8ByteSlice slices exactly where the string is encoded at all, the conversion to 32 bits moves no offset over a border,
-- the slice is not inside one character, and its text has no lone surrogate and no byte order mark at its start.
theorem slice_exact_iff (documented : Documented simdutf) (writes : WritesUtf8 toCString) (s : Units) (start stop : Nat)
    (ordered : start ≤ stop) :
    SliceExact simdutf toCString s start stop ↔ (textEncode simdutf toCString s).isSome = true ∧ Sliceable s start stop := by
  have moved := sliced_iff simdutf documented s start stop ordered
  rw [SliceExact, utf8ByteSliceOf]
  cases encoded : textEncode simdutf toCString s with
  | none => simp
  | some bytes =>
      rw [text_encoded simdutf toCString documented writes s bytes encoded]
      simpa using moved

theorem slice_exact_euro : SliceExact reference Utf16.encode [0x20AC, 0x61] 1 4 := by
  have border : Border utf8Width (Utf16.chars [0x20AC, 0x61]) 3 := ⟨[Char.ofNat 0x20AC], by decide, by decide⟩
  refine (slice_exact_iff reference Utf16.encode reference_documented encode_writes [0x20AC, 0x61] 1 4 (by omega)).mpr
    ⟨by decide, ?_, ?_, ⟨3, border, by decide, by decide⟩, ?_⟩
  · intro border _ behind
    rwa [wrapped_small 1 _ (by omega)] at behind
  · intro border _ before
    rw [wrapped_small 4 _ (by omega)]
    exact le_max_of_le_right before
  · intro first last letters _ _ between
    obtain ⟨front, behind, same, _⟩ := between
    have each : ∀ letter ∈ Utf16.lettered [0x20AC, 0x61], Utf16.charUnits letter.2 = letter.1 ∧ letter.2 ≠ byteOrderMark := by
      decide
    have within : ∀ letter ∈ letters, letter ∈ Utf16.lettered [0x20AC, 0x61] := by
      intro letter member
      simp [same, member]
    refine ⟨fun letter member => (each letter (within letter member)).1, ?_⟩
    cases letters with
    | nil => simp
    | cons letter rest => simpa using (each letter (within letter (by simp))).2

-- Inside € the start is after the end. At 2^31 the offsets turn negative and the slice is at the start.
theorem slice_inside_character :
    utf8ByteSliceOf reference Utf16.encode [0x20AC] 1 2 = some ⟨[], 3, 3, 0⟩ ∧
      utf8ByteSliceOf reference Utf16.encode [0x61, 0x62] 2147483648 2147483648 = some ⟨[], 2, 0, 0⟩ ∧
      ¬∀ (simdutf : Simdutf) (toCString : Units → List UInt8), Documented simdutf → WritesUtf8 toCString →
        ∀ (s : Units) (start stop : Nat), start ≤ stop → stop ≤ 107374182400 → SliceExact simdutf toCString s start stop := by
  have inside : utf8ByteSliceOf reference Utf16.encode [0x20AC] 1 2 = some ⟨[], 3, 3, 0⟩ := by decide
  refine ⟨inside, by decide, fun always => ?_⟩
  obtain ⟨slice, computed, sliced⟩ := always reference Utf16.encode reference_documented encode_writes [0x20AC] 1 2 (by omega) (by omega)
  have same : some slice = some ⟨[], 3, 3, 0⟩ := computed.symm.trans inside
  have ordered := sliced.ordered
  rw [Option.some.inj same] at ordered
  exact absurd ordered (by decide)

end slices

end Vacps.Server
