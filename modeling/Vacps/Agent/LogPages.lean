import Vacps.Agent.TaskLogs
import Vacps.Agent.TaskRows
import Vacps.Library.Pages

/- GET /tasks/:id/logs asked for one page of a stream after another, each from the next_offset of the last. -/
set_option autoImplicit false

namespace Vacps.Server

open Library Library.Utf8 TaskStore TerminalSessions Vacps.Native

section slices

variable (simdutf : Simdutf) (documented : Documented simdutf)

def utf8Width (char : Char) : Nat := (utf8Code.word char).length

def byteOrderMark : Char := Char.ofNat 0xFEFF

def unmarked : List Char → List Char
  | [] => []
  | char :: rest => if char = byteOrderMark then rest else char :: rest

theorem width_pos (char : Char) : 0 < utf8Width char := List.length_pos_of_ne_nil (utf8Code.word_some char)

theorem words_extent (chars : List Char) : (utf8Code.words chars).length = extent utf8Width chars := by
  induction chars with
  | nil => rfl
  | cons char rest ih => rw [Code.words_cons, List.length_append, ih, extent_cons, utf8Width]

theorem int_kept (value : Nat) (small : value < 2 ^ 31) : toInt32 value = value := by
  rw [toInt32, Int.bmod_def]
  split <;> omega

theorem int_wrapped (value : Nat) (large : 2 ^ 31 ≤ value) (small : value < 2 ^ 32) : toInt32 value < 0 := by
  rw [toInt32, Int.bmod_def]
  split <;> omega

theorem leading_word (rest : List Char) : leadingContinuationBytes (utf8Code.words rest) = 0 := by
  cases rest with
  | nil => rfl
  | cons char rest =>
      obtain ⟨head, tail, same, outer, _⟩ := utf8Code.shape char
      have plain : continues head = false := (continues_inner head).trans outer
      rw [Code.words_cons, same, leadingContinuationBytes, List.cons_append, List.takeWhile_cons_of_neg (by simp [plain])]
      rfl

-- A cut inside a character goes back to its first byte.
theorem lead_char (front behind : List UInt8) (char : Char) (offset : Nat) (inside : offset < utf8Width char) :
    leadAt (front ++ utf8Code.word char ++ behind) (front.length + offset) = front.length := by
  obtain ⟨head, rest, same, outer, inner⟩ := utf8Code.shape char
  rw [utf8Width, same, List.length_cons] at inside
  have at_ : ∀ index, (front ++ utf8Code.word char ++ behind).getD (front.length + index) 0 = (head :: rest ++ behind).getD index 0 := by
    intro index
    rw [same, List.append_assoc, List.getD_append_right _ _ _ _ (Nat.le_add_right _ _), Nat.add_sub_cancel_left]
  refine lead_at _ front.length _ ?_ ?_ (Nat.le_add_right _ _)
  · have here := at_ 0
    rw [Nat.add_zero] at here
    rw [here]
    exact outer
  · intro index after until_
    obtain ⟨later, rfl⟩ := Nat.exists_eq_add_of_lt after
    rw [Nat.add_assoc, at_, List.cons_append, List.getD_cons_succ, List.getD_append _ _ _ _ (by omega)]
    refine inner _ ?_
    rw [List.getD_eq_getElem _ _ (by omega)]
    exact List.getElem_mem _

-- Where a slice that asks for bytes up to `stop` ends.
def cutAt (chars : List Char) (stop : Nat) : Nat :=
  if stop < (utf8Code.words chars).length then leadAt (utf8Code.words chars) stop else stop

theorem cut_page (front rest : List Char) (maxBytes : Nat) :
    cutAt (front ++ rest) (min (extent utf8Width front + maxBytes) (extent utf8Width (front ++ rest))) =
      extent utf8Width (front ++ filled utf8Width maxBytes rest) := by
  have split_ := filled_split utf8Width maxBytes rest
  have fits := filled_fits utf8Width maxBytes rest
  rw [cutAt, words_extent]
  cases left : rest.drop (filled utf8Width maxBytes rest).length with
  | nil =>
      rw [left, List.append_nil] at split_
      rw [split_] at fits ⊢
      rw [extent_append, if_neg (by omega)]
      omega
  | cons next others =>
      rw [left] at split_
      have full := filled_full utf8Width maxBytes rest next others split_.symm
      have size := congrArg (extent utf8Width) split_
      rw [extent_append, extent_cons] at size
      have whole : front ++ rest = front ++ filled utf8Width maxBytes rest ++ next :: others := by rw [List.append_assoc, split_]
      have bytes : utf8Code.words (front ++ rest) =
          utf8Code.words (front ++ filled utf8Width maxBytes rest) ++ utf8Code.word next ++ utf8Code.words others := by
        rw [whole, Code.words_append, Code.words_cons, List.append_assoc]
      have width := width_pos next
      have before := extent_append utf8Width front (filled utf8Width maxBytes rest)
      have after_ := extent_append utf8Width front rest
      by_cases inside : min (extent utf8Width front + maxBytes) (extent utf8Width (front ++ rest)) < extent utf8Width (front ++ rest)
      · rw [if_pos inside, bytes]
        have back := lead_char (utf8Code.words (front ++ filled utf8Width maxBytes rest)) (utf8Code.words others) next
          (maxBytes - extent utf8Width (filled utf8Width maxBytes rest)) (by omega)
        rw [words_extent] at back
        rw [show min (extent utf8Width front + maxBytes) (extent utf8Width (front ++ rest)) =
          extent utf8Width (front ++ filled utf8Width maxBytes rest) + (maxBytes - extent utf8Width (filled utf8Width maxBytes rest)) by omega]
        exact back
      · omega

theorem slice_from (s : String) (front rest : List Char) (text : s.toList = front ++ rest) (small : extent utf8Width front < 2 ^ 31)
    (stop : Int) (last : Nat) (clipped : max (extent utf8Width front : Int) (min (toInt32 stop) (extent utf8Width (front ++ rest))) = last) :
    utf8ByteSlice simdutf s (extent utf8Width front) stop =
      { content := utf8Decode simdutf ((utf8Code.words rest).take (cutAt (front ++ rest) last - extent utf8Width front))
        totalBytes := extent utf8Width (front ++ rest)
        start := extent utf8Width front
        stop := cutAt (front ++ rest) last } := by
  have size := words_extent (front ++ rest)
  have before : (utf8Code.words front).length = extent utf8Width front := words_extent front
  have behind : (utf8Code.words (front ++ rest)).drop (extent utf8Width front) = utf8Code.words rest := by
    rw [Code.words_append, ← before, List.drop_left]
  have first : (max 0 (min (extent utf8Width front : Int) (extent utf8Width (front ++ rest)))).toNat = extent utf8Width front := by
    rw [extent_append]
    omega
  simp only [utf8ByteSlice, text, size, int_kept _ small, first, clipped, Int.toNat_natCast, behind, leading_word, Nat.add_zero,
    ite_self, cutAt]

theorem slice_page (s : String) (front rest : List Char) (maxBytes : Nat) (text : s.toList = front ++ rest)
    (start : extent utf8Width front < 2 ^ 31) (room : rest = [] ∨ extent utf8Width front + maxBytes < 2 ^ 31) :
    utf8ByteSlice simdutf s (extent utf8Width front) (extent utf8Width front + maxBytes : Nat) =
      { content := utf8Decode simdutf (utf8Code.words (filled utf8Width maxBytes rest))
        totalBytes := extent utf8Width (front ++ rest)
        start := extent utf8Width front
        stop := extent utf8Width (front ++ filled utf8Width maxBytes rest) } := by
  have clipped : max (extent utf8Width front : Int) (min (toInt32 (extent utf8Width front + maxBytes : Nat)) (extent utf8Width (front ++ rest))) =
      (min (extent utf8Width front + maxBytes) (extent utf8Width (front ++ rest)) : Nat) := by
    rcases room with rfl | room
    · rw [List.append_nil]
      omega
    · rw [int_kept _ room, extent_append]
      omega
  have page : (utf8Code.words rest).take (extent utf8Width (filled utf8Width maxBytes rest)) =
      utf8Code.words (filled utf8Width maxBytes rest) := by
    have split_ := congrArg utf8Code.words (filled_split utf8Width maxBytes rest)
    rw [Code.words_append] at split_
    rw [← split_, ← words_extent, List.take_left]
  rw [slice_from simdutf s front rest text start _ _ clipped, cut_page, extent_append _ front (filled _ _ _), Nat.add_sub_cancel_left, page]

-- A slice that would end past 2 ^ 31 bytes is empty.
theorem slice_stuck (s : String) (front : List Char) (next : Char) (rest : List Char) (maxBytes : Nat) (text : s.toList = front ++ next :: rest)
    (start : extent utf8Width front < 2 ^ 31) (small : maxBytes < 2 ^ 31) (past : 2 ^ 31 ≤ extent utf8Width front + maxBytes) :
    utf8ByteSlice simdutf s (extent utf8Width front) (extent utf8Width front + maxBytes : Nat) =
      { content := utf8Decode simdutf []
        totalBytes := extent utf8Width (front ++ next :: rest)
        start := extent utf8Width front
        stop := extent utf8Width front } := by
  have negative := int_wrapped (extent utf8Width front + maxBytes) past (by omega)
  have clipped : max (extent utf8Width front : Int) (min (toInt32 (extent utf8Width front + maxBytes : Nat))
      (extent utf8Width (front ++ next :: rest))) = (extent utf8Width front : Nat) := by omega
  have width := width_pos next
  have back := lead_char (utf8Code.words front) (utf8Code.words rest) next 0 width
  rw [Nat.add_zero, words_extent, List.append_assoc, ← Code.words_cons, ← Code.words_append] at back
  have cut : cutAt (front ++ next :: rest) (extent utf8Width front) = extent utf8Width front := by
    rw [cutAt, back, ite_self]
  rw [slice_from simdutf s front (next :: rest) text start _ _ clipped, cut, Nat.sub_self, List.take_zero]

theorem words_marked (chars : List Char) :
    [0xEF, 0xBB, 0xBF] <+: utf8Code.words chars ↔ ∃ rest, chars = byteOrderMark :: rest := by
  have mark : utf8Code.word byteOrderMark = [0xEF, 0xBB, 0xBF] := by decide
  rw [← mark]
  constructor
  · intro found
    have first := (utf8Code.first_iff (utf8Code.words chars) byteOrderMark).mpr found
    cases chars with
    | nil => rw [Code.words_nil, Code.first_nil] at first; cases first
    | cons char rest =>
        rw [Code.words_cons, Code.first_word] at first
        exact ⟨rest, by rw [Option.some.inj first]⟩
  · rintro ⟨rest, rfl⟩
    exact List.prefix_append _ _

include documented

-- A text is decoded as it is, but for a byte order mark at its start.
theorem decode_text (chars : List Char) : utf8Decode simdutf (utf8Code.words chars) = utf8Code.words (unmarked chars) := by
  rw [utf8_decode simdutf documented, skipped_mark]
  cases chars with
  | nil => rfl
  | cons char rest =>
      rw [unmarked]
      by_cases mark : char = byteOrderMark
      · subst mark
        have behind : (utf8Code.words (byteOrderMark :: rest)).drop 3 = utf8Code.words rest :=
          List.drop_left' (by decide)
        rw [if_pos ((words_marked _).mpr ⟨rest, rfl⟩), if_pos rfl, behind, utf8Code.words_scan, letters_some]
      · have plain : ¬[0xEF, 0xBB, 0xBF] <+: utf8Code.words (char :: rest) := by
          rw [words_marked]
          rintro ⟨others, same⟩
          exact mark (List.cons.inj same).1
        rw [if_neg plain, if_neg mark, List.drop_zero, utf8Code.words_scan, letters_some]

end slices

section pages

-- Every character fits a page, and no page starts at a byte order mark or would end past 2 ^ 31 bytes.
structure Turnable (maxBytes : Nat) (pages : List Char × List Char) : Prop where
  fits : ∀ char ∈ pages.2, utf8Width char ≤ maxBytes
  starts : ∀ count char rest, ((turned utf8Width maxBytes)^[count] pages).2 = char :: rest →
    char ≠ byteOrderMark ∧ extent utf8Width ((turned utf8Width maxBytes)^[count] pages).1 + maxBytes < 2 ^ 31

theorem turned_last (maxBytes : Nat) (front : List Char) : turned utf8Width maxBytes (front, []) = (front, []) := by
  simp [turned, filled]

theorem turnable_last (maxBytes : Nat) (front : List Char) : Turnable maxBytes (front, []) := by
  refine ⟨fun char member => absurd member List.not_mem_nil, fun count char rest left => ?_⟩
  rw [Function.iterate_fixed (turned_last maxBytes front)] at left
  cases left

theorem turnable_next (maxBytes : Nat) (front : List Char) (char : Char) (rest : List Char) :
    Turnable maxBytes (front, char :: rest) ↔ utf8Width char ≤ maxBytes ∧ char ≠ byteOrderMark ∧
      extent utf8Width front + maxBytes < 2 ^ 31 ∧ Turnable maxBytes (turned utf8Width maxBytes (front, char :: rest)) := by
  constructor
  · intro turnable
    have first := turnable.starts 0 char rest rfl
    refine ⟨turnable.fits char List.mem_cons_self, first.1, first.2, fun other member => ?_, fun count => turnable.starts (count + 1)⟩
    exact turnable.fits other (List.mem_of_mem_drop member)
  · intro parts
    obtain ⟨fits, unmarked_, room, later⟩ := parts
    refine ⟨fun other member => ?_, fun count => ?_⟩
    · have split_ := filled_split utf8Width maxBytes (char :: rest)
      rw [← split_] at member
      rcases List.mem_append.mp member with here | behind
      · exact filled_member utf8Width maxBytes _ other here
      · exact later.fits other behind
    · cases count with
      | zero =>
          intro other others left
          rw [Function.iterate_zero_apply, List.cons.injEq] at left
          exact ⟨left.1 ▸ unmarked_, room⟩
      | succ count => exact later.starts count

theorem unmarked_extent (chars : List Char) : extent utf8Width (unmarked chars) ≤ extent utf8Width chars := by
  cases chars with
  | nil => exact Nat.le_refl _
  | cons char rest =>
      rw [unmarked]
      split <;> simp

theorem unmarked_whole (char : Char) (rest : List Char) (same : extent utf8Width (unmarked (char :: rest)) = extent utf8Width (char :: rest)) :
    char ≠ byteOrderMark := by
  intro mark
  have width := width_pos char
  rw [unmarked, if_pos mark, extent_cons] at same
  omega

-- A page that is given whole can be turned where the later ones can.
theorem turnable_page (maxBytes : Nat) (front rest : List Char) (room : extent utf8Width front + maxBytes < 2 ^ 31)
    (same : extent utf8Width (unmarked (filled utf8Width maxBytes rest)) = extent utf8Width (filled utf8Width maxBytes rest))
    (later : Turnable maxBytes (turned utf8Width maxBytes (front, rest))) : Turnable maxBytes (front, rest) := by
  cases rest with
  | nil => exact turnable_last maxBytes front
  | cons char rest =>
      have fits : utf8Width char ≤ maxBytes := by
        by_contra wide
        have behind : (turned utf8Width maxBytes (front, char :: rest)).2 = char :: rest := by
          simp only [turned, filled, if_neg wide, List.length_nil, List.drop_zero]
        exact wide (later.fits char (by rw [behind]; exact List.mem_cons_self))
      refine (turnable_next maxBytes front char rest).mpr ⟨fits, ?_, room, later⟩
      rw [filled, if_pos fits] at same
      exact unmarked_whole char _ same

theorem turned_whole (maxBytes : Nat) (front rest : List Char)
    (nothing : extent utf8Width (rest.drop (filled utf8Width maxBytes rest).length) = 0) :
    Turnable maxBytes (turned utf8Width maxBytes (front, rest)) := by
  rw [← words_extent, List.length_eq_zero_iff] at nothing
  cases left : rest.drop (filled utf8Width maxBytes rest).length with
  | nil =>
      rw [turned]
      dsimp only
      rw [left]
      exact turnable_last maxBytes _
  | cons char others =>
      rw [left, Code.words_cons, List.append_eq_nil_iff] at nothing
      exact absurd nothing.1 (utf8Code.word_some char)

end pages

section walk

-- Requests, each for the next_offset of the one before, up to the first that is told eof: the number of the first of them,
-- its offset, and what they are given.
inductive LogWalk (ask : Nat → Nat → LogsReply) : Nat → Nat → List (List UInt8) → Prop where
  | last (count offset : Nat) (page : StreamPage) (answered : ask count offset = .page page) (forward : offset ≤ page.next_offset)
      (ended : page.eof = true) : LogWalk ask count offset [page.content]
  | next (count offset : Nat) (page : StreamPage) (contents : List (List UInt8)) (answered : ask count offset = .page page)
      (forward : offset ≤ page.next_offset) (unended : page.eof = false) (walk : LogWalk ask (count + 1) page.next_offset contents) :
      LogWalk ask count offset (page.content :: contents)

-- What a request at a page of the text is given, and where that page ends.
structure Turns (text : List Char) (maxBytes : Nat) (front rest : List Char) (page : StreamPage) : Prop where
  eof : page.eof = decide (extent utf8Width text ≤ page.next_offset)
  turned : rest = [] ∨ extent utf8Width front + maxBytes < 2 ^ 31 →
    page.content = utf8Code.words (unmarked (filled utf8Width maxBytes rest)) ∧
      page.next_offset = extent utf8Width (front ++ filled utf8Width maxBytes rest)
  stuck : rest ≠ [] → 2 ^ 31 ≤ extent utf8Width front + maxBytes → page.content = [] ∧ page.next_offset = extent utf8Width front

variable (ask : Nat → Nat → LogsReply) (text : List Char) (maxBytes : Nat)
  (turns : ∀ count front rest, front ++ rest = text → extent utf8Width front < 2 ^ 31 →
    ∃ page, ask count (extent utf8Width front) = .page page ∧ Turns text maxBytes front rest page)

theorem page_sizes (front rest : List Char) (whole : front ++ rest = text) :
    extent utf8Width front + extent utf8Width rest = extent utf8Width text ∧
      extent utf8Width (filled utf8Width maxBytes rest) + extent utf8Width (rest.drop (filled utf8Width maxBytes rest).length) =
        extent utf8Width rest ∧
      extent utf8Width (unmarked (filled utf8Width maxBytes rest)) ≤ extent utf8Width (filled utf8Width maxBytes rest) := by
  rw [← whole, extent_append, ← extent_append _ (filled utf8Width maxBytes rest), filled_split]
  exact ⟨rfl, rfl, unmarked_extent _⟩

include turns

theorem walk_exists (count : Nat) (front rest : List Char) (whole : front ++ rest = text) (small : extent utf8Width front < 2 ^ 31)
    (turnable : Turnable maxBytes (front, rest)) :
    ∃ contents, LogWalk ask count (extent utf8Width front) contents ∧ contents.flatten = utf8Code.words rest := by
  induction size : rest.length using Nat.strongRecOn generalizing count front rest with
  | ind length ih =>
      obtain ⟨page, answered, told⟩ := turns count front rest whole small
      cases rest with
      | nil =>
          obtain ⟨content, next⟩ := told.turned (Or.inl rfl)
          have forward : extent utf8Width front ≤ page.next_offset := by rw [next]; simp
          have ended : page.eof = true := by
            rw [told.eof, next, ← whole]
            simp [filled]
          refine ⟨_, .last count _ page answered forward ended, ?_⟩
          rw [content]
          rfl
      | cons char rest =>
          obtain ⟨fits, plain, room, later⟩ := (turnable_next maxBytes front char rest).mp turnable
          obtain ⟨content, next⟩ := told.turned (Or.inr room)
          have forward : extent utf8Width front ≤ page.next_offset := by rw [next]; simp
          have split_ := filled_split utf8Width maxBytes (char :: rest)
          have kept : unmarked (filled utf8Width maxBytes (char :: rest)) = filled utf8Width maxBytes (char :: rest) := by
            rw [filled, if_pos fits, unmarked, if_neg plain]
          rw [kept] at content
          have words := congrArg utf8Code.words split_
          rw [Code.words_append] at words
          cases ended : page.eof with
          | true =>
              refine ⟨_, .last count _ page answered forward ended, ?_⟩
              rw [told.eof, decide_eq_true_iff, next, ← whole, extent_append, extent_append] at ended
              have sizes := congrArg (extent utf8Width) split_
              rw [extent_append] at sizes
              have rest_ : extent utf8Width ((char :: rest).drop (filled utf8Width maxBytes (char :: rest)).length) = 0 := by omega
              rw [← words_extent] at rest_
              rw [List.eq_nil_of_length_eq_zero rest_, List.append_nil] at words
              rw [List.flatten_cons, List.flatten_nil, List.append_nil, content, words]
          | false =>
              have progress := filled_some utf8Width maxBytes char rest fits
              have joined_ := (turned_join utf8Width maxBytes (front, char :: rest)).trans whole
              have bound := filled_fits utf8Width maxBytes (char :: rest)
              have shorter : ((char :: rest).drop (filled utf8Width maxBytes (char :: rest)).length).length < length := by
                rw [List.length_drop, size]
                rw [List.length_cons] at size
                omega
              have small_ : extent utf8Width (front ++ filled utf8Width maxBytes (char :: rest)) < 2 ^ 31 := by
                rw [extent_append]
                omega
              obtain ⟨contents, walk, same⟩ := ih _ shorter (count + 1) _ _ joined_ small_ later rfl
              refine ⟨_, .next count _ page contents answered forward ended (next ▸ walk), ?_⟩
              rw [List.flatten_cons, content, same]
              exact words

-- A page of a walk, by how the text goes on there.
theorem page_cases (count : Nat) (front rest : List Char) (page : StreamPage) (whole : front ++ rest = text)
    (small : extent utf8Width front < 2 ^ 31) (answered : ask count (extent utf8Width front) = .page page) :
    page.eof = decide (extent utf8Width text ≤ page.next_offset) ∧
      (rest = [] ∧ page.content = [] ∧ page.next_offset = extent utf8Width front ∨
        rest ≠ [] ∧ extent utf8Width front + maxBytes < 2 ^ 31 ∧
            page.content = utf8Code.words (unmarked (filled utf8Width maxBytes rest)) ∧
            page.next_offset = extent utf8Width (front ++ filled utf8Width maxBytes rest) ∨
        rest ≠ [] ∧ page.content = [] ∧ page.next_offset = extent utf8Width front) := by
  obtain ⟨other, same, told⟩ := turns count front rest whole small
  rw [answered, LogsReply.page.injEq] at same
  subst same
  refine ⟨told.eof, ?_⟩
  by_cases empty : rest = []
  · obtain ⟨content, next⟩ := told.turned (Or.inl empty)
    subst empty
    refine Or.inl ⟨rfl, content, ?_⟩
    rw [next, filled, List.append_nil]
  · by_cases room : extent utf8Width front + maxBytes < 2 ^ 31
    · obtain ⟨content, next⟩ := told.turned (Or.inr room)
      exact Or.inr (Or.inl ⟨empty, room, content, next⟩)
    · obtain ⟨content, next⟩ := told.stuck empty (by omega)
      exact Or.inr (Or.inr ⟨empty, content, next⟩)

-- A walk gives no more than the text, and as much only where every page can be turned.
theorem walk_turnable (count offset : Nat) (contents : List (List UInt8)) (walk : LogWalk ask count offset contents) (front rest : List Char)
    (whole : front ++ rest = text) (small : extent utf8Width front < 2 ^ 31) (here : offset = extent utf8Width front) :
    contents.flatten.length ≤ extent utf8Width rest ∧
      (contents.flatten.length = extent utf8Width rest → Turnable maxBytes (front, rest)) := by
  induction walk generalizing front rest with
  | last count offset page answered forward ended =>
      subst here
      obtain ⟨all, size, page_⟩ := page_sizes text maxBytes front rest whole
      obtain ⟨eof, cases_⟩ := page_cases ask text maxBytes turns count front rest page whole small answered
      rw [ended, eq_comm, decide_eq_true_iff] at eof
      rw [List.flatten_cons, List.flatten_nil, List.append_nil]
      rcases cases_ with ⟨rfl, content, _⟩ | ⟨some_, room, content, next⟩ | ⟨some_, content, next⟩
      · rw [content]
        exact ⟨Nat.zero_le _, fun _ => turnable_last maxBytes front⟩
      · rw [content, words_extent]
        rw [next, extent_append] at eof
        exact ⟨by omega, fun same => turnable_page maxBytes front rest room (by omega) (turned_whole maxBytes front rest (by omega))⟩
      · exfalso
        obtain ⟨char, others, rfl⟩ := List.exists_cons_of_ne_nil some_
        have width := width_pos char
        rw [extent_cons] at all
        omega
  | next count offset page contents answered forward unended walk ih =>
      subst here
      obtain ⟨all, size, page_⟩ := page_sizes text maxBytes front rest whole
      obtain ⟨eof, cases_⟩ := page_cases ask text maxBytes turns count front rest page whole small answered
      rw [unended, eq_comm, decide_eq_false_iff_not] at eof
      rw [List.flatten_cons, List.length_append]
      rcases cases_ with ⟨rfl, content, next⟩ | ⟨some_, room, content, next⟩ | ⟨some_, content, next⟩
      · rw [extent_nil] at all
        omega
      · have fits := filled_fits utf8Width maxBytes rest
        have small_ : extent utf8Width (front ++ filled utf8Width maxBytes rest) < 2 ^ 31 := by
          rw [extent_append]
          omega
        have joined_ := (turned_join utf8Width maxBytes (front, rest)).trans whole
        obtain ⟨bound, later⟩ := ih (front ++ filled utf8Width maxBytes rest) (rest.drop (filled utf8Width maxBytes rest).length)
          joined_ small_ next
        rw [content, words_extent]
        exact ⟨by omega, fun same => turnable_page maxBytes front rest room (by omega) (later (by omega))⟩
      · rw [content, List.length_nil, Nat.zero_add]
        exact ih front rest whole small next

end walk

section logs

variable (simdutf : Simdutf) (sha256Hex : String → String) (db : Database) (id : String) (stream : LogStream) (maxBytes : Nat)
  (times : Nat → Int)

def pageQuery (offset : Nat) : LogsQuery where
  offset := some offset
  stream := some stream
  max_bytes := some maxBytes
  preview_max_bytes := none
  expected_stream_version := none

def askLogs (count offset : Nat) : LogsReply := getTaskLogs simdutf sha256Hex db id (pageQuery stream maxBytes offset) (times count)

def servedText : String := joined (listLogs db id (some stream) 0 50000)

def unservedText : String := joined ((logRows db id (some stream) 0).drop 50000)

def retainedText : String := joined (logRows db id (some stream) 0)

def ReadsWhole : Prop :=
  ∃ contents, LogWalk (askLogs simdutf sha256Hex db id stream maxBytes times) 0 0 contents ∧
    contents.flatten = utf8Code.words (retainedText db id stream).toList

theorem retained_split : (retainedText db id stream).toList = (servedText db id stream).toList ++ (unservedText db id stream).toList := by
  rw [← String.toList_append]
  simp only [retainedText, servedText, unservedText, joined, listLogs]
  rw [← String.join_append, ← List.map_append, List.take_append_drop]

variable (documented : Documented simdutf) (row : TaskRow) (found : db.tasks.find? id = some row)
  (terminal : isTerminalTaskStatus row.status = true) (fresh : ∀ count, outputExpired row.toStoredTask (times count) = false)
  (output : stream ≠ .system) (admitted : 1 ≤ maxBytes ∧ maxBytes ≤ 1048576)

include found fresh output admitted

theorem page_asked (count offset : Nat) :
    askLogs simdutf sha256Hex db id stream maxBytes times count offset =
      streamPage simdutf sha256Hex db id row.toStoredTask stream offset maxBytes none := by
  have size : min (max (numberOr (some (maxBytes : Int)) 65536) 1) 1048576 = maxBytes := by
    rw [numberOr, Option.filter_some_pos (by simp; omega), Option.getD_some]
    omega
  have start : max 0 (numberOr (some (offset : Int)) 0) = offset := by
    rw [numberOr]
    by_cases zero : offset = 0
    · subst zero
      rfl
    · rw [Option.filter_some_pos (by simpa using zero), Option.getD_some]
      omega
  have asked := logs_stream simdutf sha256Hex db id (pageQuery stream maxBytes offset) (times count) row found (fresh count) stream rfl output
  rw [askLogs, asked, pageQuery, start, size]

include documented terminal

theorem logs_turn (count : Nat) (front rest : List Char) (whole : front ++ rest = (servedText db id stream).toList)
    (small : extent utf8Width front < 2 ^ 31) :
    ∃ page, askLogs simdutf sha256Hex db id stream maxBytes times count (extent utf8Width front) = .page page ∧
      Turns (servedText db id stream).toList maxBytes front rest page := by
  have ended : isTerminalTaskStatus row.toStoredTask.status = true := terminal
  rw [page_asked simdutf sha256Hex db id stream maxBytes times row found fresh output admitted]
  refine ⟨_, rfl, ?_, fun room => ?_, fun some_ past => ?_⟩
  · change (isTerminalTaskStatus row.toStoredTask.status && decide ((utf8Code.words (servedText db id stream).toList).length ≤ _)) = _
    rw [ended, Bool.true_and, words_extent]
  · have page := slice_page simdutf (servedText db id stream) front rest maxBytes whole.symm small room
    rw [← decode_text simdutf documented]
    exact ⟨congrArg ByteSlice.content page, congrArg ByteSlice.stop page⟩
  · obtain ⟨char, others, rfl⟩ := List.exists_cons_of_ne_nil some_
    have page := slice_stuck simdutf (servedText db id stream) front char others maxBytes whole.symm small (by omega) past
    rw [← decode_nil simdutf documented]
    exact ⟨congrArg ByteSlice.content page, congrArg ByteSlice.stop page⟩

end logs

section concrete

-- A task that finished 999 milliseconds after the epoch and wrote a line.
def loggedDb (data : String) : Database :=
  ((TaskQueue.queuedDb.run (.insertLog "task" 1 .stdout data)).2.run (.writeTask "task" .succeeded none none none (some 999) 999)).2

def loggedRow : TaskRow :=
  { newTask TaskQueue.queuedTask .succeeded none 0 with finishedAt := some 999, updatedAt := 999 }

end concrete

-- The pages of a log join to the text that was retained just when all of it is in the first 50000 rows, no character is wider
-- than a page, none of the pages starts at a byte order mark, and none ends past 2 ^ 31 bytes.
theorem log_pages_iff (simdutf : Simdutf) (documented : Documented simdutf) (sha256Hex : String → String) (db : Database) (id : String)
    (row : TaskRow) (stream : LogStream) (maxBytes : Nat) (times : Nat → Int) (found : db.tasks.find? id = some row)
    (terminal : isTerminalTaskStatus row.status = true) (fresh : ∀ count, outputExpired row.toStoredTask (times count) = false)
    (output : stream ≠ .system) (admitted : 1 ≤ maxBytes ∧ maxBytes ≤ 1048576) :
    ReadsWhole simdutf sha256Hex db id stream maxBytes times ↔
      unservedText db id stream = "" ∧ Turnable maxBytes ([], (retainedText db id stream).toList) := by
  have turns := logs_turn simdutf sha256Hex db id stream maxBytes times documented row found terminal fresh output admitted
  have split_ := retained_split db id stream
  constructor
  · rintro ⟨contents, walk, whole⟩
    obtain ⟨bound, turnable⟩ := walk_turnable _ _ maxBytes turns 0 0 contents walk [] (servedText db id stream).toList rfl (by decide) rfl
    have size := congrArg List.length whole
    rw [split_, words_extent, extent_append] at size
    have nothing : extent utf8Width (unservedText db id stream).toList = 0 := by omega
    rw [← words_extent, List.length_eq_zero_iff] at nothing
    have unserved : (unservedText db id stream).toList = [] := by
      cases left : (unservedText db id stream).toList with
      | nil => rfl
      | cons char rest =>
          rw [left, Code.words_cons, List.append_eq_nil_iff] at nothing
          exact absurd nothing.1 (utf8Code.word_some char)
    rw [unserved, extent_nil] at size
    rw [split_, unserved, List.append_nil]
    exact ⟨String.toList_eq_nil_iff.mp unserved, turnable size⟩
  · rintro ⟨unserved, turnable⟩
    have same : (retainedText db id stream).toList = (servedText db id stream).toList := by
      rw [split_, unserved]
      exact List.append_nil _
    rw [same] at turnable
    obtain ⟨contents, walk, whole⟩ := walk_exists _ _ maxBytes turns 0 [] (servedText db id stream).toList rfl (by decide) turnable
    exact ⟨contents, walk, by rw [whole, same]⟩

-- Three bytes a page.
theorem log_pages_done : ReadsWhole reference (fun _ => "") (loggedDb "done") "task" .stdout 3 (fun _ => 86400000) := by
  refine (log_pages_iff reference reference_documented (fun _ => "") (loggedDb "done") "task" loggedRow .stdout 3 (fun _ => 86400000) rfl rfl
    (fun _ => by decide) (by decide) (by decide)).mpr ⟨by decide, ?_⟩
  have text : (retainedText (loggedDb "done") "task" .stdout).toList = ['d', 'o', 'n', 'e'] := by decide
  rw [text]
  refine (turnable_next 3 _ _ _).mpr ⟨by decide, by decide, by decide, (turnable_next 3 _ _ _).mpr ⟨by decide, by decide, by decide, ?_⟩⟩
  exact turnable_last 3 _

-- A page of one byte has no room for a character of two, and every request is for the same offset.
theorem accent_never_read : ¬ReadsWhole reference (fun _ => "") (loggedDb "é") "task" .stdout 1 (fun _ => 86400000) := by
  rintro ⟨contents, walk, whole⟩
  have turns := logs_turn reference (fun _ => "") (loggedDb "é") "task" .stdout 1 (fun _ => 86400000) reference_documented loggedRow rfl rfl
    (fun _ => by decide) (by decide) (by decide)
  have served : (servedText (loggedDb "é") "task" .stdout).toList = ['é'] := by decide
  have retained : (retainedText (loggedDb "é") "task" .stdout).toList = ['é'] := by decide
  obtain ⟨_, turnable⟩ := walk_turnable _ _ 1 turns 0 0 contents walk [] ['é'] served.symm (by decide) rfl
  rw [retained] at whole
  have fits := (turnable (by rw [whole, words_extent])).fits 'é' List.mem_cons_self
  revert fits
  decide

end Vacps.Server
