import Vacps.Native.FileHandles

/- The blocking backend and the asynchronous one on a system that does not fail: each method returns, and what it answers
   and leaves is fixed by the bytes, the cursor and the mode alone, whichever backend it runs on and in whatever portions
   the system moves the bytes. -/
set_option autoImplicit false

namespace Vacps.Native.Fs

open Library

-- A call that moves something and that no stop meets.
structure Turn.Clean (turn : Turn) : Prop where
  started : turn.before = false
  kept : turn.after = false
  moved : ∃ count, turn.reply = .moved (count + 1)

def Clean (turns : List Turn) : Prop := ∀ turn ∈ turns, turn.Clean

-- So many calls are enough for a method.
def FileOp.effort : FileOp → Nat
  | .read max_bytes => readLimit (max_bytes.getD SIZE_MAX)
  | .readAt _ max_bytes => readLimit max_bytes
  | .write data => data.length + 1
  | .writeAt _ data => data.length
  | .truncate _ => 1
  | .flush => 1
  | .close => 0

structure Call.Clean (call : Call) : Prop where
  stops : call.stops = ⟨false, false, false⟩
  turns : Fs.Clean call.turns
  enough : call.op.effort ≤ call.turns.length

section loops

variable (strerror message : Nat → String) (file : File)

theorem clean_head {turn : Turn} {rest : List Turn} (clean : Clean (turn :: rest)) : turn.Clean := clean turn List.mem_cons_self

theorem clean_tail {turn : Turn} {rest : List Turn} (clean : Clean (turn :: rest)) : Clean rest :=
  fun other member => clean other (List.mem_cons_of_mem _ member)

theorem pread_moves (content : Bytes) (offset want count : Nat) (some_ : pread content offset want count ≠ []) :
    1 ≤ (pread content offset want count).length := List.length_pos_iff.mpr some_

theorem pread_all_returns (op : String) (offset max_bytes : Nat) (turns : List Turn) (buf : Bytes) (clean : Clean turns)
    (enough : max_bytes ≤ buf.length + turns.length) :
    ∃ data, pread_all strerror file op offset max_bytes turns buf = some (.ok data) := by
  induction turns generalizing buf with
  | nil =>
      rw [pread_all, if_pos (by simpa using enough)]
      exact ⟨buf, rfl⟩
  | cons turn rest ih =>
      rw [pread_all]
      split
      · exact ⟨buf, rfl⟩
      · obtain ⟨count, moved⟩ := (clean_head clean).moved
        rw [moved]
        dsimp only
        split
        · exact ⟨buf, rfl⟩
        · rename_i some_
          have step := pread_moves _ _ _ _ some_
          refine ih _ (clean_tail clean) ?_
          rw [List.length_append]
          rw [List.length_cons] at enough
          omega

theorem async_pread_all_returns (offset max_bytes : Nat) (turns : List Turn) (buf : Bytes) (clean : Clean turns)
    (enough : max_bytes ≤ buf.length + turns.length) :
    ∃ data, async_pread_all message file offset max_bytes turns buf = some (.ok data) := by
  induction turns generalizing buf with
  | nil =>
      rw [async_pread_all, if_pos (by simpa using enough)]
      exact ⟨buf, rfl⟩
  | cons turn rest ih =>
      rw [async_pread_all]
      split
      · exact ⟨buf, rfl⟩
      · obtain ⟨count, moved⟩ := (clean_head clean).moved
        rw [moved, (clean_head clean).started, (clean_head clean).kept]
        dsimp only
        rw [if_neg Bool.false_ne_true, if_neg Bool.false_ne_true]
        split
        · exact ⟨buf, rfl⟩
        · rename_i some_
          have step := pread_moves _ _ _ _ some_
          refine ih _ (clean_tail clean) ?_
          rw [List.length_append]
          rw [List.length_cons] at enough
          omega

-- A loop that has written everything, with the calls it did not need.
structure Finished (turns : List Turn) (need : Nat) (written : Written) : Prop where
  whole : ∃ off, written.result = .ok off
  clean : Clean written.turns
  spare : turns.length ≤ written.turns.length + need

theorem finished_later (turn : Turn) (rest : List Turn) (need more : Nat) (written : Written) (finished : Finished rest need written)
    (one : need + 1 ≤ more) : Finished (turn :: rest) more written := by
  refine ⟨finished.whole, finished.clean, ?_⟩
  have spare := finished.spare
  rw [List.length_cons]
  omega

theorem pwrite_all_returns (path op : String) (offset : Nat) (data : Bytes) (turns : List Turn) (off : Nat) (content : Bytes)
    (clean : Clean turns) (enough : data.length ≤ off + turns.length) :
    ∃ written, pwrite_all strerror path op offset data turns off content = some written ∧ Finished turns (data.length - off) written := by
  induction turns generalizing off content with
  | nil =>
      rw [pwrite_all, if_pos (by simpa using enough)]
      exact ⟨_, rfl, ⟨_, rfl⟩, clean, Nat.le_add_right _ _⟩
  | cons turn rest ih =>
      rw [pwrite_all]
      split
      · exact ⟨_, rfl, ⟨_, rfl⟩, clean, Nat.le_add_right _ _⟩
      · rename_i more
        obtain ⟨count, moved⟩ := (clean_head clean).moved
        rw [moved]
        dsimp only
        rw [List.length_cons] at enough
        rw [if_neg (by omega)]
        obtain ⟨written, returned, finished⟩ := ih (off + min (data.length - off) (count + 1))
          (overwrite 0 content (offset + off) (slice data off (min (data.length - off) (count + 1)))) (clean_tail clean) (by omega)
        exact ⟨written, returned, finished_later turn rest _ _ written finished (by omega)⟩

theorem async_pwrite_all_returns (offset : Nat) (data : Bytes) (turns : List Turn) (off : Nat) (content : Bytes) (clean : Clean turns)
    (enough : data.length ≤ off + turns.length) :
    ∃ written, async_pwrite_all message offset data turns off content = some written ∧
      Finished turns (data.length - off) written := by
  induction turns generalizing off content with
  | nil =>
      rw [async_pwrite_all, if_pos (by simpa using enough)]
      exact ⟨_, rfl, ⟨_, rfl⟩, clean, Nat.le_add_right _ _⟩
  | cons turn rest ih =>
      rw [async_pwrite_all]
      split
      · exact ⟨_, rfl, ⟨_, rfl⟩, clean, Nat.le_add_right _ _⟩
      · rename_i more
        obtain ⟨count, moved⟩ := (clean_head clean).moved
        rw [moved, (clean_head clean).started, (clean_head clean).kept]
        dsimp only
        rw [List.length_cons] at enough
        rw [if_neg Bool.false_ne_true, if_neg Bool.false_ne_true, if_neg (by omega)]
        obtain ⟨written, returned, finished⟩ := ih (off + min (data.length - off) (count + 1))
          (overwrite 0 content (offset + off) (slice data off (min (data.length - off) (count + 1)))) (clean_tail clean) (by omega)
        exact ⟨written, returned, finished_later turn rest _ _ written finished (by omega)⟩

theorem append_all_returns (path : String) (data : Bytes) (turns : List Turn) (off : Nat) (content : Bytes) (clean : Clean turns)
    (enough : data.length ≤ off + turns.length) :
    ∃ written, append_all strerror path data turns off content = some written ∧ Finished turns (data.length - off) written := by
  induction turns generalizing off content with
  | nil =>
      rw [append_all, if_pos (by simpa using enough)]
      exact ⟨_, rfl, ⟨_, rfl⟩, clean, Nat.le_add_right _ _⟩
  | cons turn rest ih =>
      rw [append_all]
      split
      · exact ⟨_, rfl, ⟨_, rfl⟩, clean, Nat.le_add_right _ _⟩
      · rename_i more
        obtain ⟨count, moved⟩ := (clean_head clean).moved
        rw [moved]
        dsimp only
        rw [List.length_cons] at enough
        rw [if_neg (by omega)]
        obtain ⟨written, returned, finished⟩ := ih (off + min (data.length - off) (count + 1))
          (content ++ slice data off (min (data.length - off) (count + 1))) (clean_tail clean) (by omega)
        exact ⟨written, returned, finished_later turn rest _ _ written finished (by omega)⟩

end loops

section attempts

variable (plain : Plain)

def Fits (offset length : Nat) : Prop := offset ≤ OFF_MAX ∧ offset + length ≤ OFF_MAX + 1

-- When a method answers, where nothing fails.
def Plain.Allows : FileOp → Prop
  | .read max_bytes =>
      let lim := readLimit (max_bytes.getD SIZE_MAX)
      (plain.closed = false ∧ lim ≤ kHardMaxReadBytes) ∧ plain.cursor + lim ≤ OFF_MAX + 1 ∧
        plain.cursor + (slice plain.content plain.cursor lim).length ≤ OFF_MAX
  | .readAt offset max_bytes =>
      (plain.closed = false ∧ readLimit max_bytes ≤ kHardMaxReadBytes) ∧ (readLimit max_bytes = 0 ∨ Fits offset (readLimit max_bytes))
  | .write data => plain.closed = false ∧ (plain.appends = true ∨ plain.cursor + data.length ≤ OFF_MAX)
  | .writeAt offset data => (plain.closed = false ∧ plain.appends = false) ∧ (data = [] ∨ Fits offset data.length)
  | .truncate size => plain.closed = false ∧ size ≤ OFF_MAX
  | .flush => plain.closed = false
  | .close => True

instance (offset length : Nat) : Decidable (Fits offset length) := inferInstanceAs (Decidable (_ ∧ _))

instance (op : FileOp) : Decidable (plain.Allows op) :=
  match op with
  | .read _ => inferInstanceAs (Decidable ((_ ∧ _) ∧ _ ∧ _))
  | .readAt _ _ => inferInstanceAs (Decidable ((_ ∧ _) ∧ (_ ∨ _)))
  | .write _ => inferInstanceAs (Decidable (_ ∧ (_ ∨ _)))
  | .writeAt _ _ => inferInstanceAs (Decidable ((_ ∧ _) ∧ (_ ∨ _)))
  | .truncate _ => inferInstanceAs (Decidable (_ ∧ _))
  | .flush => inferInstanceAs (Decidable (_ = _))
  | .close => inferInstanceAs (Decidable True)

-- A write up to the last byte an off_t reaches leaves no place for the cursor: it is done, and refused.
def Plain.refused (op : FileOp) : Plain :=
  match op with
  | .write data =>
      if plain.closed = false ∧ plain.appends = false ∧ plain.cursor + data.length = OFF_MAX + 1 then
        { plain with content := overwrite 0 plain.content plain.cursor data }
      else plain
  | _ => plain

def Plain.attempt (op : FileOp) : Option Answer × Plain :=
  if plain.Allows op then (some (plain.meaning op).1, (plain.meaning op).2) else (none, plain.refused op)

end attempts

section ranges

@[simp] theorem offset_add_ok_iff (base delta : Nat) : offset_add_ok base delta = true ↔ base + delta ≤ OFF_MAX := by
  have below : OFF_MAX < SIZE_MAX := by decide
  simp only [offset_add_ok, offset_ok, Bool.and_eq_true, Bool.not_eq_true', decide_eq_false_iff_not, decide_eq_true_eq]
  omega

theorem offset_add_over (base delta : Nat) (beyond : OFF_MAX < base + delta) : offset_add_ok base delta = false := by
  rw [Bool.eq_false_iff, ne_eq, offset_add_ok_iff]
  omega

theorem check_range_fits (offset length : Nat) (op : String) (fits : Fits offset length) : check_range offset length op = .ok () := by
  obtain ⟨start, reach⟩ := fits
  rw [check_range, if_neg (by simpa [offset_ok] using start)]
  split
  · rfl
  · rename_i some_
    have last : offset_add_ok offset (length - 1) = true := (offset_add_ok_iff _ _).mpr (by omega)
    rw [last, if_neg (by simp)]

theorem check_range_fails (offset length : Nat) (op : String) (some_ : length ≠ 0) (fails : ¬ Fits offset length) :
    ∃ error, check_range offset length op = .error error := by
  rw [check_range]
  split
  · exact ⟨_, rfl⟩
  · rename_i start
    have start : offset ≤ OFF_MAX := by simpa [offset_ok] using start
    have last : ¬ offset_add_ok offset (length - 1) = true := by
      rw [offset_add_ok_iff]
      intro reach
      exact fails ⟨start, by omega⟩
    rw [Bool.eq_false_iff.mpr last, if_pos (by rfl)]
    exact ⟨_, rfl⟩

theorem open_checks (file : File) (opened : file.closed = false) : file.ensure_open = .ok () := by
  rw [File.ensure_open, opened, if_neg Bool.false_ne_true]

theorem closed_checks (file : File) (closed : file.closed = true) : file.ensure_open = .error (file_closed "io") := by
  rw [File.ensure_open, if_pos closed]

end ranges

section settling

variable {α : Type} (strerror message : Nat → String) (file : File)

-- The step ends, the way the plain file does.
def Settles (answer : α → Answer) (op : FileOp) (step : Step α) : Prop :=
  ∃ result after, step = some (result, after) ∧ ((result.map answer).toOption, after.plain) = file.plain.attempt op

theorem settles_refused (answer : α → Answer) (op : FileOp) (error : Error) (denied : ¬ file.plain.Allows op)
    (kept : file.plain.refused op = file.plain) : Settles file answer op (refuse file error) := by
  refine ⟨_, _, rfl, ?_⟩
  rw [Plain.attempt, if_neg denied, kept]
  rfl

theorem settles_done (answer : α → Answer) (op : FileOp) (value : α) (after : File) (allowed : file.plain.Allows op)
    (answered : answer value = (file.plain.meaning op).1) (left : after.plain = (file.plain.meaning op).2) :
    Settles file answer op (some (.ok value, after)) := by
  refine ⟨_, _, rfl, ?_⟩
  rw [Plain.attempt, if_pos allowed, ← answered, ← left]
  rfl

theorem pread_all_whole (op : String) (offset lim : Nat) (turns : List Turn) (clean : Clean turns) (enough : lim ≤ turns.length) :
    pread_all strerror file op offset lim turns [] = some (.ok (slice file.content offset lim)) := by
  obtain ⟨data, returned⟩ := pread_all_returns strerror file op offset lim turns [] clean (by simpa using enough)
  rw [returned, pread_all_exact strerror file op offset lim turns [] data rfl (Nat.zero_le _) returned]

theorem async_pread_all_whole (offset lim : Nat) (turns : List Turn) (clean : Clean turns) (enough : lim ≤ turns.length) :
    async_pread_all message file offset lim turns [] = some (.ok (slice file.content offset lim)) := by
  obtain ⟨data, returned⟩ := async_pread_all_returns message file offset lim turns [] clean (by simpa using enough)
  rw [returned, async_pread_all_exact message file offset lim turns [] data rfl (Nat.zero_le _) returned]

-- A positioned write of all its data.
theorem wrote_whole (grown : Bytes → Bytes) (data : Bytes) (turns : List Turn) (step : Option Written)
    (next : Nat → File → List Turn → Step Nat) (leaves : ∀ written, step = some written → Leaves grown data written)
    (returned : ∃ written, step = some written ∧ Finished turns data.length written) :
    ∃ rest, Clean rest ∧ turns.length ≤ rest.length + data.length ∧
      file.wrote step next = next data.length { file with content := grown data } rest := by
  obtain ⟨written, same, ⟨off, whole⟩, clean, spare⟩ := returned
  obtain ⟨all, content⟩ := (leaves written same).whole off whole
  refine ⟨written.turns, clean, spare, ?_⟩
  rw [same, File.wrote, whole, content, all]

theorem read_allows (max_bytes : Option Nat) (lim : Nat) (resolved : lim = readLimit (max_bytes.getD SIZE_MAX))
    (small : lim ≤ kHardMaxReadBytes) (opened : file.closed = false) :
    file.plain.Allows (.read max_bytes) ↔
      file.offset + lim ≤ OFF_MAX + 1 ∧ file.offset + (slice file.content file.offset lim).length ≤ OFF_MAX := by
  subst resolved
  exact ⟨fun allowed => allowed.2, fun range => ⟨⟨opened, small⟩, range⟩⟩

theorem read_settled (max_bytes : Option Nat) (lim : Nat) (resolved : lim = readLimit (max_bytes.getD SIZE_MAX))
    (allowed : file.plain.Allows (.read max_bytes)) :
    Settles file .bytes (.read max_bytes) (some (.ok (slice file.content file.offset lim),
      { file with offset := file.offset + (slice file.content file.offset lim).length })) := by
  subst resolved
  exact settles_done file _ _ _ _ allowed rfl rfl

theorem read_nothing (max_bytes : Option Nat) (lim : Nat) (resolved : lim = readLimit (max_bytes.getD SIZE_MAX))
    (inside : file.offset ≤ OFF_MAX) (opened : file.closed = false) (zero : lim = 0) :
    file.plain.Allows (.read max_bytes) ∧ slice file.content file.offset lim = [] := by
  have none_ : slice file.content file.offset lim = [] := by rw [zero, slice_zero]
  refine ⟨(read_allows file max_bytes lim resolved (by omega) opened).mpr ⟨by omega, ?_⟩, none_⟩
  rw [none_]
  exact inside

-- The two ways to read at the cursor.
theorem read_settles (max_bytes : Option Nat) (lim : Nat) (resolved : lim = readLimit (max_bytes.getD SIZE_MAX))
    (small : lim ≤ kHardMaxReadBytes) (inside : file.offset ≤ OFF_MAX) (turns : List Turn) (clean : Clean turns)
    (enough : lim ≤ turns.length) : Settles file .bytes (.read max_bytes) (file.read strerror lim turns) := by
  rw [File.read, limit_again lim small]
  dsimp only [checked]
  rcases (Bool.eq_false_or_eq_true file.closed).symm with opened | closed
  · have allows := read_allows file max_bytes lim resolved small opened
    have settled := read_settled file max_bytes lim resolved
    rw [open_checks file opened]
    dsimp only
    split
    · rename_i zero
      obtain ⟨allowed, none_⟩ := read_nothing file max_bytes lim resolved inside opened zero
      rw [none_] at settled
      exact settled allowed
    · rename_i some_
      by_cases fits : Fits file.offset lim
      · rw [check_range_fits _ _ _ fits, pread_all_whole strerror file "read" file.offset lim turns clean enough]
        dsimp only [File.left]
        by_cases reach : offset_add_ok file.offset (slice file.content file.offset lim).length = true
        · rw [reach]
          exact settled (allows.mpr ⟨fits.2, (offset_add_ok_iff _ _).mp reach⟩)
        · rw [Bool.eq_false_iff.mpr reach]
          exact settles_refused file _ _ _ (fun allowed => reach ((offset_add_ok_iff _ _).mpr (allows.mp allowed).2)) rfl
      · obtain ⟨error, failed⟩ := check_range_fails file.offset lim "read" some_ fits
        rw [failed]
        exact settles_refused file _ _ _ (fun allowed => fits ⟨inside, (allows.mp allowed).1⟩) rfl
  · rw [closed_checks file closed]
    exact settles_refused file _ _ _ (fun allowed => Bool.noConfusion (closed.symm.trans allowed.1.1)) rfl

theorem advancing_ok (moved : α → Nat) (value : α) :
    advancing moved (some (.ok value, file)) =
      if offset_add_ok file.offset (moved value) = true then some (.ok value, { file with offset := file.offset + moved value })
      else refuse file (cursor_overflow "io") := by
  rw [advancing, File.advance_cursor]
  split
  · rename_i last advanced
    split at advanced
    · cases advanced
    · rename_i reach
      cases advanced
      rw [if_pos (by simpa [-offset_add_ok_iff] using reach)]
  · rename_i error advanced
    split at advanced
    · rename_i beyond
      cases advanced
      rw [if_neg (by simpa [-offset_add_ok_iff] using beyond)]
    · cases advanced

theorem advancing_refuse (moved : α → Nat) (error : Error) : advancing moved (refuse file error) = refuse file error := rfl

theorem async_read_settles (max_bytes : Option Nat) (lim : Nat) (resolved : lim = readLimit (max_bytes.getD SIZE_MAX))
    (small : lim ≤ kHardMaxReadBytes) (inside : file.offset ≤ OFF_MAX) (turns : List Turn) (clean : Clean turns)
    (enough : lim ≤ turns.length) :
    Settles file .bytes (.read max_bytes) (advancing List.length (file.async_read_at message file.offset lim false turns)) := by
  rw [File.async_read_at, limit_again lim small]
  dsimp only [checked]
  rcases (Bool.eq_false_or_eq_true file.closed).symm with opened | closed
  · have allows := read_allows file max_bytes lim resolved small opened
    have settled := read_settled file max_bytes lim resolved
    rw [opened, if_neg Bool.false_ne_true]
    split
    · rename_i zero
      obtain ⟨allowed, none_⟩ := read_nothing file max_bytes lim resolved inside opened zero
      rw [none_] at settled
      rw [advancing_ok, if_pos (by simpa using inside)]
      exact settled allowed
    · rename_i some_
      by_cases fits : Fits file.offset lim
      · rw [check_range_fits _ _ _ fits, async_pread_all_whole message file file.offset lim turns clean enough]
        dsimp only [File.left]
        rw [if_neg Bool.false_ne_true, advancing_ok]
        by_cases reach : offset_add_ok file.offset (slice file.content file.offset lim).length = true
        · rw [if_pos reach]
          exact settled (allows.mpr ⟨fits.2, (offset_add_ok_iff _ _).mp reach⟩)
        · rw [if_neg reach]
          exact settles_refused file _ _ _ (fun allowed => reach ((offset_add_ok_iff _ _).mpr (allows.mp allowed).2)) rfl
      · obtain ⟨error, failed⟩ := check_range_fails file.offset lim "readAt" some_ fits
        rw [failed, advancing_refuse]
        exact settles_refused file _ _ _ (fun allowed => fits ⟨inside, (allows.mp allowed).1⟩) rfl
  · rw [if_pos closed, advancing_refuse]
    exact settles_refused file _ _ _ (fun allowed => Bool.noConfusion (closed.symm.trans allowed.1.1)) rfl

theorem read_at_settled (offset max_bytes lim : Nat) (resolved : lim = readLimit max_bytes) (small : lim ≤ kHardMaxReadBytes)
    (opened : file.closed = false) (range : lim = 0 ∨ Fits offset lim) :
    Settles file .bytes (.readAt offset max_bytes) (some (.ok (slice file.content offset lim), file)) := by
  subst resolved
  exact settles_done file _ _ _ _ ⟨⟨opened, small⟩, range⟩ rfl rfl

theorem read_at_denied (offset max_bytes lim : Nat) (resolved : lim = readLimit max_bytes) (error : Error)
    (denied : file.closed = true ∨ (lim ≠ 0 ∧ ¬ Fits offset lim)) :
    Settles file .bytes (.readAt offset max_bytes) (refuse file error) := by
  subst resolved
  refine settles_refused file _ _ _ ?_ rfl
  intro allowed
  obtain ⟨⟨opened, _⟩, range⟩ := allowed
  rcases denied with closed | ⟨some_, fails⟩
  · exact Bool.noConfusion (closed.symm.trans opened)
  · exact range.elim some_ fails

theorem read_at_settles (offset max_bytes lim : Nat) (resolved : lim = readLimit max_bytes) (small : lim ≤ kHardMaxReadBytes)
    (turns : List Turn) (clean : Clean turns) (enough : lim ≤ turns.length) :
    Settles file .bytes (.readAt offset max_bytes) (file.read_at strerror offset lim turns) := by
  have settled := read_at_settled file offset max_bytes lim resolved small
  rw [File.read_at, limit_again lim small]
  dsimp only [checked]
  rcases (Bool.eq_false_or_eq_true file.closed).symm with opened | closed
  · rw [open_checks file opened]
    dsimp only
    split
    · rename_i zero
      have answer := settled opened (Or.inl zero)
      rw [zero, slice_zero] at answer
      exact answer
    · rename_i some_
      by_cases fits : Fits offset lim
      · rw [check_range_fits _ _ _ fits, pread_all_whole strerror file "readAt" offset lim turns clean enough]
        exact settled opened (Or.inr fits)
      · obtain ⟨error, failed⟩ := check_range_fails offset lim "readAt" some_ fits
        rw [failed]
        exact read_at_denied file offset max_bytes lim resolved _ (Or.inr ⟨some_, fits⟩)
  · rw [closed_checks file closed]
    exact read_at_denied file offset max_bytes lim resolved _ (Or.inl closed)

theorem async_read_at_settles (offset max_bytes lim : Nat) (resolved : lim = readLimit max_bytes) (small : lim ≤ kHardMaxReadBytes)
    (turns : List Turn) (clean : Clean turns) (enough : lim ≤ turns.length) :
    Settles file .bytes (.readAt offset max_bytes) (file.async_read_at message offset lim false turns) := by
  have settled := read_at_settled file offset max_bytes lim resolved small
  rw [File.async_read_at, limit_again lim small]
  dsimp only [checked]
  rcases (Bool.eq_false_or_eq_true file.closed).symm with opened | closed
  · rw [opened, if_neg Bool.false_ne_true]
    split
    · rename_i zero
      have answer := settled opened (Or.inl zero)
      rw [zero, slice_zero] at answer
      exact answer
    · rename_i some_
      by_cases fits : Fits offset lim
      · rw [check_range_fits _ _ _ fits, async_pread_all_whole message file offset lim turns clean enough]
        exact settled opened (Or.inr fits)
      · obtain ⟨error, failed⟩ := check_range_fails offset lim "readAt" some_ fits
        rw [failed]
        exact read_at_denied file offset max_bytes lim resolved _ (Or.inr ⟨some_, fits⟩)
  · rw [if_pos closed]
    exact read_at_denied file offset max_bytes lim resolved _ (Or.inl closed)

theorem pwrite_all_whole (path op : String) (offset : Nat) (data : Bytes) (turns : List Turn) (clean : Clean turns)
    (enough : data.length ≤ turns.length) (next : Nat → File → List Turn → Step Nat) :
    ∃ rest, file.wrote (pwrite_all strerror path op offset data turns 0 file.content) next =
      next data.length { file with content := overwrite 0 file.content offset data } rest := by
  obtain ⟨rest, _, _, same⟩ := wrote_whole file (overwrite 0 file.content offset) data turns
    (pwrite_all strerror path op offset data turns 0 file.content) next
    (fun written => pwrite_all_leaves strerror path op offset data file.content turns 0 file.content written (Nat.zero_le _)
      (by rw [List.take_zero, overwrite_nil]))
    (pwrite_all_returns strerror path op offset data turns 0 file.content clean (by omega))
  exact ⟨rest, same⟩

theorem async_pwrite_all_whole (offset : Nat) (data : Bytes) (turns : List Turn) (clean : Clean turns)
    (enough : data.length ≤ turns.length) (next : Nat → File → List Turn → Step Nat) :
    ∃ rest, file.wrote (async_pwrite_all message offset data turns 0 file.content) next =
      next data.length { file with content := overwrite 0 file.content offset data } rest := by
  obtain ⟨rest, _, _, same⟩ := wrote_whole file (overwrite 0 file.content offset) data turns
    (async_pwrite_all message offset data turns 0 file.content) next
    (fun written => async_pwrite_all_leaves message offset data file.content turns 0 file.content written (Nat.zero_le _)
      (by rw [List.take_zero, overwrite_nil]))
    (async_pwrite_all_returns message offset data turns 0 file.content clean (by omega))
  exact ⟨rest, same⟩

theorem write_at_settled (offset : Nat) (data : Bytes) (positioned : file.is_append_mode = false) (opened : file.closed = false)
    (range : data = [] ∨ Fits offset data.length) :
    Settles file .count (.writeAt offset data)
      (some (.ok data.length, { file with content := overwrite 0 file.content offset data })) :=
  settles_done file _ _ _ _ ⟨⟨opened, positioned⟩, range⟩ rfl rfl

theorem write_at_denied (offset : Nat) (data : Bytes) (error : Error)
    (denied : file.closed = true ∨ (data ≠ [] ∧ ¬ Fits offset data.length)) :
    Settles file .count (.writeAt offset data) (refuse file error) := by
  refine settles_refused file _ _ _ ?_ rfl
  intro allowed
  obtain ⟨⟨opened, _⟩, range⟩ := allowed
  rcases denied with closed | ⟨some_, fails⟩
  · exact Bool.noConfusion (closed.symm.trans opened)
  · exact range.elim some_ fails

theorem write_at_settles (offset : Nat) (data : Bytes) (positioned : file.is_append_mode = false) (turns : List Turn)
    (clean : Clean turns) (enough : data.length ≤ turns.length) :
    Settles file .count (.writeAt offset data) (file.write_at strerror offset data turns) := by
  have settled := write_at_settled file offset data positioned
  rw [File.write_at]
  dsimp only [checked]
  rcases (Bool.eq_false_or_eq_true file.closed).symm with opened | closed
  · rw [open_checks file opened]
    dsimp only
    rw [positioned, if_neg Bool.false_ne_true]
    split
    · rename_i none_
      have answer := settled opened (Or.inl none_)
      rw [none_, overwrite_nil] at answer
      rw [none_]
      exact answer
    · rename_i some_
      by_cases fits : Fits offset data.length
      · obtain ⟨rest, same⟩ := pwrite_all_whole strerror file file.display_path "writeAt" offset data turns clean enough
          (fun off after _ => some (.ok off, after))
        rw [check_range_fits _ _ _ fits]
        dsimp only
        rw [same]
        exact settled opened (Or.inr fits)
      · obtain ⟨error, failed⟩ := check_range_fails offset data.length "writeAt" (mt List.length_eq_zero_iff.mp some_) fits
        rw [failed]
        exact write_at_denied file offset data _ (Or.inr ⟨some_, fits⟩)
  · rw [closed_checks file closed]
    exact write_at_denied file offset data _ (Or.inl closed)

theorem async_write_at_settles (offset : Nat) (data : Bytes) (positioned : file.is_append_mode = false) (turns : List Turn)
    (clean : Clean turns) (enough : data.length ≤ turns.length) :
    Settles file .count (.writeAt offset data) (file.async_write_at message offset data false turns) := by
  have settled := write_at_settled file offset data positioned
  rw [File.async_write_at]
  dsimp only [checked]
  rcases (Bool.eq_false_or_eq_true file.closed).symm with opened | closed
  · rw [opened, positioned, if_neg Bool.false_ne_true, if_neg Bool.false_ne_true]
    split
    · rename_i none_
      have answer := settled opened (Or.inl none_)
      rw [none_, overwrite_nil] at answer
      rw [none_]
      exact answer
    · rename_i some_
      by_cases fits : Fits offset data.length
      · obtain ⟨rest, same⟩ := async_pwrite_all_whole message file offset data turns clean enough
          (fun off after _ => some (.ok off, after))
        rw [check_range_fits _ _ _ fits]
        dsimp only
        rw [if_neg Bool.false_ne_true, same]
        exact settled opened (Or.inr fits)
      · obtain ⟨error, failed⟩ := check_range_fails offset data.length "writeAt" (mt List.length_eq_zero_iff.mp some_) fits
        rw [failed]
        exact write_at_denied file offset data _ (Or.inr ⟨some_, fits⟩)
  · rw [if_pos closed]
    exact write_at_denied file offset data _ (Or.inl closed)

-- A write at the cursor that has left the bytes as it should, and is answered where the cursor can follow.
theorem write_settled (data : Bytes) (error : Error) (positioned : file.is_append_mode = false) (opened : file.closed = false)
    (range : file.offset + data.length ≤ OFF_MAX + 1) (step : Step Nat)
    (answered : file.offset + data.length ≤ OFF_MAX → step =
      some (.ok data.length, { file with content := overwrite 0 file.content file.offset data, offset := file.offset + data.length }))
    (beyond : file.offset + data.length = OFF_MAX + 1 →
      step = refuse { file with content := overwrite 0 file.content file.offset data } error) :
    Settles file .count (.write data) step := by
  by_cases reach : file.offset + data.length ≤ OFF_MAX
  · rw [answered reach]
    refine settles_done file _ _ _ _ ⟨opened, Or.inr reach⟩ rfl ?_
    rw [Plain.meaning, written_at file.plain positioned]
    rfl
  · have edge : file.offset + data.length = OFF_MAX + 1 := by omega
    have denied : ¬ file.plain.Allows (.write data) := by
      rintro ⟨_, mode | inside⟩
      · exact Bool.noConfusion (positioned.symm.trans mode)
      · exact reach inside
    rw [beyond edge]
    refine ⟨_, _, rfl, ?_⟩
    rw [Plain.attempt, if_neg denied, Plain.refused, if_pos ⟨opened, positioned, edge⟩]
    rfl

theorem write_denied (data : Bytes) (error : Error) (inside : file.offset ≤ OFF_MAX)
    (denied : file.closed = true ∨ (file.is_append_mode = false ∧ ¬ Fits file.offset data.length)) :
    Settles file .count (.write data) (refuse file error) := by
  refine settles_refused file _ _ _ ?_ ?_
  · rintro ⟨opened, range⟩
    rcases denied with closed | ⟨positioned, fails⟩
    · exact Bool.noConfusion (closed.symm.trans opened)
    · rcases range with mode | reach
      · exact Bool.noConfusion (positioned.symm.trans mode)
      · exact fails ⟨inside, Nat.le_succ_of_le reach⟩
  · rw [Plain.refused, if_neg]
    rintro ⟨opened, positioned, edge⟩
    rcases denied with closed | ⟨_, fails⟩
    · exact Bool.noConfusion (closed.symm.trans opened)
    · exact fails ⟨inside, Nat.le_of_eq edge⟩

theorem write_settles (data : Bytes) (positioned : file.is_append_mode = false) (inside : file.offset ≤ OFF_MAX) (turns : List Turn)
    (clean : Clean turns) (enough : data.length ≤ turns.length) :
    Settles file .count (.write data) (file.write strerror data turns) := by
  rw [File.write, positioned, if_neg Bool.false_ne_true]
  dsimp only [checked]
  rcases (Bool.eq_false_or_eq_true file.closed).symm with opened | closed
  · have settled := fun range => write_settled file data (cursor_overflow "write") positioned opened range
    rw [open_checks file opened]
    dsimp only
    split
    · rename_i none_
      refine settled ?_ _ ?_ ?_
      · rw [none_, List.length_nil]
        omega
      · intro _
        rw [none_, overwrite_nil]
        rfl
      · rw [none_, List.length_nil]
        omega
    · rename_i some_
      by_cases fits : Fits file.offset data.length
      · obtain ⟨rest, same⟩ := pwrite_all_whole strerror file file.display_path "write" file.offset data turns clean enough
          (fun off after _ => if !offset_add_ok file.offset off then refuse after (cursor_overflow "write")
            else some (.ok off, { after with offset := file.offset + off }))
        rw [check_range_fits _ _ _ fits]
        dsimp only
        rw [same]
        refine settled fits.2 _ ?_ ?_
        · intro reach
          rw [(offset_add_ok_iff _ _).mpr reach]
          rfl
        · intro edge
          rw [offset_add_over file.offset data.length (by omega)]
          rfl
      · obtain ⟨error, failed⟩ := check_range_fails file.offset data.length "write" (mt List.length_eq_zero_iff.mp some_) fits
        rw [failed]
        exact write_denied file data _ inside (Or.inr ⟨positioned, fits⟩)
  · rw [closed_checks file closed]
    exact write_denied file data _ inside (Or.inl closed)

theorem async_write_settles (data : Bytes) (positioned : file.is_append_mode = false) (inside : file.offset ≤ OFF_MAX)
    (turns : List Turn) (clean : Clean turns) (enough : data.length ≤ turns.length) :
    Settles file .count (.write data) (advancing id (file.async_write_at message file.offset data false turns)) := by
  rw [File.async_write_at]
  dsimp only [checked]
  rcases (Bool.eq_false_or_eq_true file.closed).symm with opened | closed
  · have settled := fun range => write_settled file data (cursor_overflow "io") positioned opened range
    rw [opened, positioned, if_neg Bool.false_ne_true, if_neg Bool.false_ne_true]
    split
    · rename_i none_
      rw [advancing_ok, if_pos (by simpa using inside)]
      refine settled ?_ _ ?_ ?_
      · rw [none_, List.length_nil]
        omega
      · intro _
        rw [none_, overwrite_nil]
        rfl
      · rw [none_, List.length_nil]
        omega
    · rename_i some_
      by_cases fits : Fits file.offset data.length
      · obtain ⟨rest, same⟩ := async_pwrite_all_whole message file file.offset data turns clean enough
          (fun off after _ => some (.ok off, after))
        rw [check_range_fits _ _ _ fits]
        dsimp only
        rw [if_neg Bool.false_ne_true, same, advancing_ok]
        refine settled fits.2 _ ?_ ?_
        · intro reach
          exact if_pos ((offset_add_ok_iff _ _).mpr reach)
        · intro edge
          exact if_neg (Bool.eq_false_iff.mp (offset_add_over file.offset data.length (by omega)))
      · obtain ⟨error, failed⟩ := check_range_fails file.offset data.length "writeAt" (mt List.length_eq_zero_iff.mp some_) fits
        rw [failed, advancing_refuse]
        exact write_denied file data _ inside (Or.inr ⟨positioned, fits⟩)
  · rw [if_pos closed, advancing_refuse]
    exact write_denied file data _ inside (Or.inl closed)

theorem append_settles (data : Bytes) (mode : file.is_append_mode = true) (inside : file.offset ≤ OFF_MAX) (turns : List Turn)
    (clean : Clean turns) (enough : data.length + 1 ≤ turns.length) :
    Settles file .count (.write data) (file.append_write strerror data turns) := by
  rw [File.append_write]
  dsimp only [checked]
  rcases (Bool.eq_false_or_eq_true file.closed).symm with opened | closed
  · have settled := fun off after => settles_done file Answer.count (.write data) off after ⟨opened, Or.inl mode⟩
    rw [open_checks file opened]
    dsimp only
    split
    · rename_i none_
      subst none_
      exact settled _ _ rfl rfl
    · rename_i some_
      obtain ⟨rest, spare, length, same⟩ := wrote_whole file (file.content ++ ·) data turns
        (append_all strerror file.display_path data turns 0 file.content) (fun off after rest => after.measured off rest)
        (fun written => append_all_leaves strerror file.display_path data file.content turns 0 file.content written (Nat.zero_le _)
          (by rw [List.take_zero, List.append_nil]))
        (append_all_returns strerror file.display_path data turns 0 file.content clean (by omega))
      rw [same]
      cases rest with
      | nil =>
          rw [List.length_nil] at length
          omega
      | cons turn more =>
          obtain ⟨count, moved⟩ := (clean_head spare).moved
          rw [File.measured, moved]
          refine settled _ _ rfl ?_
          rw [Plain.meaning, Plain.written, if_neg some_, if_pos (show file.plain.appends = true from mode)]
          rfl
  · rw [closed_checks file closed]
    exact write_denied file data _ inside (Or.inl closed)

theorem control_done (op : String) (turns : List Turn) (done : Step Unit) (clean : Clean turns) (enough : 1 ≤ turns.length) :
    file.control strerror op turns done = done := by
  cases turns with
  | nil => exact absurd enough (by decide)
  | cons turn rest =>
      obtain ⟨count, moved⟩ := (clean_head clean).moved
      rw [File.control, moved]

theorem truncate_settles (size : Nat) (turns : List Turn) (clean : Clean turns) (enough : 1 ≤ turns.length) :
    Settles file (fun _ => .done) (.truncate size) (file.truncate strerror size turns) := by
  rw [File.truncate, control_done strerror file _ turns _ clean enough]
  dsimp only [checked]
  rcases (Bool.eq_false_or_eq_true file.closed).symm with opened | closed
  · rw [open_checks file opened]
    dsimp only
    by_cases reach : size ≤ OFF_MAX
    · rw [if_neg (by simpa [offset_ok] using reach)]
      exact settles_done file _ _ _ _ ⟨opened, reach⟩ rfl rfl
    · rw [if_pos (by simpa [offset_ok] using reach)]
      exact settles_refused file _ _ _ (fun allowed => reach allowed.2) rfl
  · rw [closed_checks file closed]
    exact settles_refused file _ _ _ (fun allowed => Bool.noConfusion (closed.symm.trans allowed.1)) rfl

theorem flush_settles (turns : List Turn) (clean : Clean turns) (enough : 1 ≤ turns.length) :
    Settles file (fun _ => .done) .flush (file.flush strerror turns) := by
  rw [File.flush, control_done strerror file _ turns _ clean enough]
  dsimp only [checked]
  rcases (Bool.eq_false_or_eq_true file.closed).symm with opened | closed
  · rw [open_checks file opened]
    exact settles_done file _ _ _ _ opened rfl rfl
  · rw [closed_checks file closed]
    exact settles_refused file _ _ _ (fun allowed => Bool.noConfusion (closed.symm.trans allowed)) rfl

theorem close_settles : Settles file (fun _ => .done) .close file.close := by
  rw [File.close]
  refine settles_done file _ _ _ _ trivial rfl ?_
  split
  · rename_i closed
    rw [Plain.meaning, File.plain, closed]
  · rfl

theorem settles_answered (answer : α → Answer) (op : FileOp) (step : Step α) (settles : Settles file answer op step) :
    Settles file id op (answering answer step) := by
  obtain ⟨result, after, rfl, same⟩ := settles
  refine ⟨result.map answer, after, rfl, ?_⟩
  rw [← same]
  cases result with
  | error error => rfl
  | ok value => rfl

theorem resolve_denied (max_bytes : Nat) (error : Error) (failed : resolve_read_max max_bytes = .error error) :
    ¬ readLimit max_bytes ≤ kHardMaxReadBytes := by
  rw [resolve_read_max] at failed
  rw [readLimit]
  split at failed
  · cases failed
  · rename_i other
    split at failed
    · rename_i large
      rw [if_neg other]
      omega
    · cases failed

-- Any method of a file whose cursor an off_t holds.
theorem perform_settles (inside : file.offset ≤ OFF_MAX) (call : Call) (clean : call.Clean) :
    Settles file id call.op (file.perform strerror message call.op call.stops call.turns) := by
  obtain ⟨op, stops, turns⟩ := call
  obtain ⟨free, clean, enough⟩ := clean
  dsimp only at free clean enough ⊢
  subst free
  have worked : ∀ {β : Type} (work : Step β), run_blocking ⟨false, false, false⟩ file work = work := by
    intro β work
    cases work with
    | none => rfl
    | some step => rfl
  cases op with
  | read max_bytes =>
      rw [File.perform, if_neg Bool.false_ne_true]
      cases resolved : resolve_read_max (max_bytes.getD SIZE_MAX) with
      | error error =>
          exact settles_refused file _ _ _ (fun allowed => resolve_denied _ _ resolved allowed.1.2) rfl
      | ok lim =>
          obtain ⟨limit, small⟩ := resolve_limit _ lim resolved
          rw [FileOp.effort, ← limit] at enough
          dsimp only [checked]
          apply settles_answered
          rw [worked]
          split
          · exact async_read_settles message file max_bytes lim limit small inside turns clean enough
          · exact read_settles strerror file max_bytes lim limit small inside turns clean enough
  | readAt offset max_bytes =>
      rw [File.perform, if_neg Bool.false_ne_true]
      cases resolved : resolve_read_max max_bytes with
      | error error =>
          exact settles_refused file _ _ _ (fun allowed => resolve_denied _ _ resolved allowed.1.2) rfl
      | ok lim =>
          obtain ⟨limit, small⟩ := resolve_limit _ lim resolved
          rw [FileOp.effort, ← limit] at enough
          dsimp only [checked]
          apply settles_answered
          rw [worked]
          split
          · exact async_read_at_settles message file offset max_bytes lim limit small turns clean enough
          · exact read_at_settles strerror file offset max_bytes lim limit small turns clean enough
  | write data =>
      rw [FileOp.effort] at enough
      rw [File.perform, if_neg Bool.false_ne_true]
      apply settles_answered
      rw [worked, worked]
      split
      · rename_i mode
        exact append_settles strerror file data mode inside turns clean enough
      · rename_i positioned
        have positioned : file.is_append_mode = false := Bool.eq_false_iff.mpr positioned
        split
        · exact async_write_settles message file data positioned inside turns clean (by omega)
        · exact write_settles strerror file data positioned inside turns clean (by omega)
  | writeAt offset data =>
      rw [FileOp.effort] at enough
      rw [File.perform, if_neg Bool.false_ne_true]
      split
      · rename_i mode
        exact settles_refused file _ _ _ (fun allowed => Bool.noConfusion (mode.symm.trans allowed.1.2)) rfl
      · rename_i positioned
        have positioned : file.is_append_mode = false := Bool.eq_false_iff.mpr positioned
        apply settles_answered
        rw [worked]
        split
        · exact async_write_at_settles message file offset data positioned turns clean enough
        · exact write_at_settles strerror file offset data positioned turns clean enough
  | truncate size =>
      rw [File.perform, if_neg Bool.false_ne_true, worked]
      exact settles_answered file _ _ _ (truncate_settles strerror file size turns clean enough)
  | flush =>
      rw [File.perform, if_neg Bool.false_ne_true, worked]
      exact settles_answered file _ _ _ (flush_settles strerror file turns clean enough)
  | close =>
      rw [File.perform, if_neg Bool.false_ne_true, worked, ite_self]
      exact settles_answered file _ _ _ (close_settles file)

end settling

section runs

variable (strerror message : Nat → String)

def Plain.attempts : Plain → List (Happening FileOp) → List (Happening (FileOp × Option Answer)) × Plain
  | plain, [] => ([], plain)
  | plain, .called op :: rest =>
      let after := (plain.attempt op).2.attempts rest
      (.called (op, (plain.attempt op).1) :: after.1, after.2)
  | plain, .changed content :: rest =>
      let after := (plain.changed content).attempts rest
      (.changed content :: after.1, after.2)

theorem refused_cursor (plain : Plain) (op : FileOp) : (plain.refused op).cursor = plain.cursor := by
  cases op with
  | write data =>
      rw [Plain.refused]
      split
      · rfl
      · rfl
  | _ => rfl

-- The cursor of a plain file stays one that an off_t holds.
theorem attempt_inside (plain : Plain) (inside : plain.cursor ≤ OFF_MAX) (op : FileOp) : (plain.attempt op).2.cursor ≤ OFF_MAX := by
  rw [Plain.attempt]
  split
  · rename_i allowed
    cases op with
    | read max_bytes => exact allowed.2.2
    | write data =>
        rw [Plain.meaning, Plain.written]
        split
        · exact inside
        · split
          · exact Nat.min_le_right _ _
          · rename_i positioned
            exact allowed.2.resolve_left positioned
    | readAt _ _ => exact inside
    | writeAt _ _ => exact inside
    | truncate _ => exact inside
    | flush => exact inside
    | close => exact inside
  · rw [refused_cursor]
    exact inside

def seen (entry : FileOp × Except Error Answer) : FileOp × Option Answer := (entry.1, entry.2.toOption)

def CleanCalls (events : List (Happening Call)) : Prop := ∀ call, Happening.called call ∈ events → call.Clean

theorem handle_settles (file : File) (inside : file.offset ≤ OFF_MAX) (events : List (Happening Call)) (clean : CleanCalls events) :
    ∃ trace last, file.run strerror message events = some (trace, last) ∧
      (trace.map (Happening.map seen), last.plain) = file.plain.attempts (events.map (Happening.map Call.op)) := by
  induction events generalizing file with
  | nil => exact ⟨[], file, rfl, rfl⟩
  | cons event rest ih =>
      have later : CleanCalls rest := fun call member => clean call (List.mem_cons_of_mem _ member)
      cases event with
      | called call =>
          obtain ⟨outcome, after, step, same⟩ := perform_settles strerror message file inside call (clean call List.mem_cons_self)
          have kept : after.offset ≤ OFF_MAX := by
            have bound := attempt_inside file.plain inside call.op
            rw [← same] at bound
            exact bound
          obtain ⟨trace, last, ran, told⟩ := ih after kept later
          refine ⟨.called (call.op, outcome) :: trace, last, ?_, ?_⟩
          · rw [File.run, step]
            dsimp only
            rw [ran]
            rfl
          · have outcome_same : outcome.toOption = (file.plain.attempt call.op).1 := by
              rw [← same]
              cases outcome with
              | error error => rfl
              | ok answer => rfl
            have after_same : after.plain = (file.plain.attempt call.op).2 := by rw [← same]
            rw [List.map_cons, List.map_cons, Happening.map, Happening.map, Plain.attempts, ← after_same, ← told, seen, outcome_same]
      | changed content =>
          obtain ⟨trace, last, ran, told⟩ := ih { file with content := content } inside later
          refine ⟨.changed content :: trace, last, ?_, ?_⟩
          · rw [File.run, ran]
            rfl
          · have changed : (File.plain { file with content := content }) = file.plain.changed content := rfl
            rw [List.map_cons, List.map_cons, Happening.map, Happening.map, Plain.attempts, ← changed, ← told]

-- The two backends, each with calls of its own, and what both do.
theorem backends_agree (one other : File) (same : one.plain = other.plain) (inside : one.offset ≤ OFF_MAX)
    (events others : List (Happening Call)) (asked : events.map (Happening.map Call.op) = others.map (Happening.map Call.op))
    (clean : CleanCalls events) (others_clean : CleanCalls others) :
    ∃ trace last other_trace other_last, one.run strerror message events = some (trace, last) ∧
      other.run strerror message others = some (other_trace, other_last) ∧
      (trace.map (Happening.map seen), last.plain) = one.plain.attempts (events.map (Happening.map Call.op)) ∧
      (other_trace.map (Happening.map seen), other_last.plain) = (trace.map (Happening.map seen), last.plain) := by
  have other_inside : other.offset ≤ OFF_MAX := by
    have offset : one.offset = other.offset := congrArg Plain.cursor same
    rw [← offset]
    exact inside
  obtain ⟨trace, last, ran, told⟩ := handle_settles strerror message one inside events clean
  obtain ⟨other_trace, other_last, other_ran, other_told⟩ := handle_settles strerror message other other_inside others others_clean
  refine ⟨trace, last, other_trace, other_last, ran, other_ran, told, ?_⟩
  rw [told, other_told, same, asked]

-- One byte a call and one more, in the words of the turns.
def portions (counts : List Nat) : List Turn := counts.map fun count => ⟨false, .moved (count + 1), false⟩

theorem portions_clean (counts : List Nat) : Clean (portions counts) := by
  intro turn member
  obtain ⟨count, _, rfl⟩ := List.mem_map.mp member
  exact ⟨rfl, rfl, count, rfl⟩

def patching (counts : List Nat) : List (Happening Call) :=
  [.called ⟨.write [9, 8, 7], ⟨false, false, false⟩, portions counts⟩, .changed [5, 5, 5, 5, 5],
    .called ⟨.readAt 3 4, ⟨false, false, false⟩, portions counts⟩]

theorem patching_clean (counts : List Nat) (enough : 4 ≤ counts.length) : CleanCalls (patching counts) := by
  have long : 4 ≤ (portions counts).length := by
    rw [portions, List.length_map]
    exact enough
  intro call member
  simp only [patching, List.mem_cons, Happening.called.injEq, reduceCtorEq, List.not_mem_nil, or_false, false_or] at member
  rcases member with rfl | rfl
  · exact ⟨rfl, portions_clean counts, long⟩
  · exact ⟨rfl, portions_clean counts, long⟩

def patched (use_asio : Bool) : File := ⟨[1, 2, 3], use_asio, "", .read_write, 1, false⟩

theorem backends_agree_portions : ∃ trace last other_trace other_last,
    (patched true).run toString toString (patching [0, 0, 0, 0]) = some (trace, last) ∧
    (patched false).run toString toString (patching [1, 7, 2, 5, 3]) = some (other_trace, other_last) ∧
    (trace.map (Happening.map seen), last.plain) = ([.called (.write [9, 8, 7], some (.count 3)), .changed [5, 5, 5, 5, 5],
      .called (.readAt 3 4, some (.bytes [5, 5]))], ⟨[5, 5, 5, 5, 5], 4, false, false⟩) ∧
    (other_trace.map (Happening.map seen), other_last.plain) = (trace.map (Happening.map seen), last.plain) :=
  backends_agree toString toString (patched true) (patched false) rfl (by decide) (patching [0, 0, 0, 0]) (patching [1, 7, 2, 5, 3]) rfl
    (patching_clean _ (by decide)) (patching_clean _ (by decide))

end runs

end Vacps.Native.Fs
