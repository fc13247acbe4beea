import Vacps.Native.File

/- What a file handle is: some bytes and a cursor. Over every run of its methods, whatever portions the system moves and
   wherever it fails, a method that answers has done what it says, and one that fails has at most written the front of its
   data. Where nothing fails the two backends cannot be told apart. -/
set_option autoImplicit false

namespace Vacps.Native.Fs

open Library

structure Plain where
  content : Bytes
  cursor : Nat
  closed : Bool
  appends : Bool

def File.plain (file : File) : Plain := ⟨file.content, file.offset, file.closed, file.is_append_mode⟩

def FileOp.data : FileOp → Bytes
  | .write data => data
  | .writeAt _ data => data
  | _ => []

def FileOp.front (op : FileOp) (count : Nat) : FileOp :=
  match op with
  | .write data => .write (data.take count)
  | .writeAt offset data => .writeAt offset (data.take count)
  | other => other

-- Reading as much as there is stops at the default.
def readLimit (max_bytes : Nat) : Nat := if max_bytes = SIZE_MAX then kDefaultMaxReadBytes else max_bytes

section plain

variable (plain : Plain)

def Plain.written (data : Bytes) : Plain :=
  if data = [] then plain
  else if plain.appends then { plain with content := plain.content ++ data, cursor := st_size (plain.content ++ data) }
  else { plain with content := overwrite 0 plain.content plain.cursor data, cursor := plain.cursor + data.length }

-- What a method says it does.
def Plain.meaning : FileOp → Answer × Plain
  | .read max_bytes =>
      let data := slice plain.content plain.cursor (readLimit (max_bytes.getD SIZE_MAX))
      (.bytes data, { plain with cursor := plain.cursor + data.length })
  | .readAt offset max_bytes => (.bytes (slice plain.content offset (readLimit max_bytes)), plain)
  | .write data => (.count data.length, plain.written data)
  | .writeAt offset data => (.count data.length, { plain with content := overwrite 0 plain.content offset data })
  | .truncate size => (.done, { plain with content := padded 0 plain.content size })
  | .flush => (.done, plain)
  | .close => (.done, { plain with closed := true })

-- An append whose size fstat did not tell moves the cursor by what it wrote, or not at all.
def Unmeasured (op : FileOp) (after : Plain) : Prop :=
  plain.appends = true ∧ ∃ data cursor, op = .write data ∧ after = { plain.written data with cursor := cursor } ∧
    (cursor = plain.cursor ∨ cursor = plain.cursor + data.length)

structure Completes (op : FileOp) (answer : Answer) (after : Plain) : Prop where
  opened : plain.closed = false ∨ op = .close
  answered : answer = (plain.meaning op).1
  left : after = (plain.meaning op).2 ∨ Unmeasured plain op after

-- A method that fails has done nothing, or all without saying so, or has written the front of its data.
def Breaks (op : FileOp) (after : Plain) : Prop :=
  after = plain ∨ (∃ answer, Completes plain op answer after) ∨
    ∃ count ≤ op.data.length, after = { plain with content := (plain.meaning (op.front count)).2.content }

def Behaves (op : FileOp) (outcome : Except Error Answer) (after : Plain) : Prop :=
  match outcome with
  | .ok answer => Completes plain op answer after
  | .error _ => Breaks plain op after

end plain

section loops

variable (strerror message : Nat → String) (file : File)

theorem slice_own (content : Bytes) (start count : Nat) :
    slice content start (slice content start count).length = slice content start count := by
  rw [slice, slice, List.length_take, List.take_eq_take_iff]
  simp

theorem pread_grows (content : Bytes) (offset want count : Nat) (buf : Bytes) (read : buf = slice content offset buf.length) :
    buf ++ pread content (offset + buf.length) want count =
      slice content offset (buf ++ pread content (offset + buf.length) want count).length := by
  rw [List.length_append, ← slice_append, ← read, pread, slice_own]

-- Nothing is read only where nothing is left.
theorem pread_ends (content : Bytes) (offset max_bytes count : Nat) (buf : Bytes) (read : buf = slice content offset buf.length)
    (more : buf.length < max_bytes)
    (ends : pread content (offset + buf.length) (min kChunk (max_bytes - buf.length)) count = []) :
    buf = slice content offset max_bytes := by
  have behind : content.length ≤ offset + buf.length := by
    have length := congrArg List.length ends
    rw [pread, slice, List.length_take, List.length_drop, List.length_nil] at length
    have chunk : 0 < kChunk := by decide
    omega
  have none_ : slice content (offset + buf.length) (max_bytes - buf.length) = [] := by
    rw [slice, List.drop_eq_nil_of_le behind, List.take_nil]
  have all : buf.length + (max_bytes - buf.length) = max_bytes := by omega
  rw [← all, ← slice_append, none_, List.append_nil]
  exact read

theorem pread_within (content : Bytes) (offset max_bytes count : Nat) (buf : Bytes) (more : buf.length < max_bytes) :
    (buf ++ pread content (offset + buf.length) (min kChunk (max_bytes - buf.length)) count).length ≤ max_bytes := by
  rw [List.length_append, pread, slice, List.length_take]
  omega

theorem pread_all_exact (op : String) (offset max_bytes : Nat) (turns : List Turn) (buf data : Bytes)
    (read : buf = slice file.content offset buf.length) (within : buf.length ≤ max_bytes)
    (returned : pread_all strerror file op offset max_bytes turns buf = some (.ok data)) :
    data = slice file.content offset max_bytes := by
  induction turns generalizing buf with
  | nil =>
      rw [pread_all] at returned
      split at returned
      · rename_i enough
        cases returned
        have all : data.length = max_bytes := by omega
        exact all ▸ read
      · cases returned
  | cons turn rest ih =>
      rw [pread_all] at returned
      split at returned
      · rename_i enough
        cases returned
        have all : data.length = max_bytes := by omega
        exact all ▸ read
      · rename_i more
        rw [Nat.not_le] at more
        dsimp only at returned
        cases reply : turn.reply with
        | interrupted =>
            rw [reply] at returned
            exact ih buf read within returned
        | failed errno =>
            rw [reply] at returned
            cases returned
        | moved count =>
            rw [reply] at returned
            dsimp only at returned
            split at returned
            · rename_i ends
              cases returned
              exact pread_ends file.content offset max_bytes count data read more ends
            · exact ih _ (pread_grows file.content offset _ count buf read) (pread_within file.content offset max_bytes count buf more) returned

theorem async_pread_all_exact (offset max_bytes : Nat) (turns : List Turn) (buf data : Bytes)
    (read : buf = slice file.content offset buf.length) (within : buf.length ≤ max_bytes)
    (returned : async_pread_all message file offset max_bytes turns buf = some (.ok data)) :
    data = slice file.content offset max_bytes := by
  induction turns generalizing buf with
  | nil =>
      rw [async_pread_all] at returned
      split at returned
      · rename_i enough
        cases returned
        have all : data.length = max_bytes := by omega
        exact all ▸ read
      · cases returned
  | cons turn rest ih =>
      rw [async_pread_all] at returned
      split at returned
      · rename_i enough
        cases returned
        have all : data.length = max_bytes := by omega
        exact all ▸ read
      · rename_i more
        rw [Nat.not_le] at more
        dsimp only at returned
        split at returned
        · cases returned
        · cases reply : turn.reply with
          | interrupted =>
              rw [reply] at returned
              cases returned
          | failed code =>
              rw [reply] at returned
              cases returned
          | moved count =>
              rw [reply] at returned
              dsimp only at returned
              split at returned
              · rename_i ends
                cases returned
                exact pread_ends file.content offset max_bytes count data read more ends
              · split at returned
                · cases returned
                · exact ih _ (pread_grows file.content offset _ count buf read) (pread_within file.content offset max_bytes count buf more)
                    returned

-- What a loop that writes data leaves of a file whose bytes a front of the data changes as given.
structure Leaves (grown : Bytes → Bytes) (data : Bytes) (written : Written) : Prop where
  front : ∃ count ≤ data.length, written.content = grown (data.take count)
  whole : ∀ off, written.result = .ok off → off = data.length ∧ written.content = grown data

theorem leaves_stopped (grown : Bytes → Bytes) (data : Bytes) (off : Nat) (error : Error) (content : Bytes) (turns : List Turn)
    (within : off ≤ data.length) (so_far : content = grown (data.take off)) : Leaves grown data ⟨.error error, content, turns⟩ :=
  ⟨⟨off, within, so_far⟩, fun off none_ => (by cases none_)⟩

theorem leaves_done (grown : Bytes → Bytes) (data : Bytes) (off : Nat) (content : Bytes) (turns : List Turn)
    (within : off ≤ data.length) (done : data.length ≤ off) (so_far : content = grown (data.take off)) :
    Leaves grown data ⟨.ok off, content, turns⟩ := by
  have all : off = data.length := by omega
  subst all
  rw [List.take_length] at so_far
  refine ⟨⟨data.length, within, ?_⟩, ?_⟩
  · rw [List.take_length]
    exact so_far
  · intro other same
    cases same
    exact ⟨rfl, so_far⟩

theorem take_slice (data : Bytes) (off count : Nat) : data.take off ++ slice data off count = data.take (off + count) := by
  rw [slice, List.take_add]

-- One call more of a positioned write.
theorem overwrite_next (base : Bytes) (offset off : Nat) (data : Bytes) (count : Nat) (content : Bytes) (within : off ≤ data.length)
    (so_far : content = overwrite 0 base offset (data.take off)) :
    overwrite 0 content (offset + off) (slice data off count) = overwrite 0 base offset (data.take (off + count)) := by
  have behind := overwrite_behind (0 : UInt8) base offset (data.take off) (slice data off count)
  rw [List.length_take, Nat.min_eq_left within] at behind
  rw [so_far, behind, take_slice]

theorem pwrite_all_leaves (path op : String) (offset : Nat) (data base : Bytes) (turns : List Turn) (off : Nat) (content : Bytes)
    (written : Written) (within : off ≤ data.length) (so_far : content = overwrite 0 base offset (data.take off))
    (returned : pwrite_all strerror path op offset data turns off content = some written) :
    Leaves (overwrite 0 base offset) data written := by
  induction turns generalizing off content with
  | nil =>
      rw [pwrite_all] at returned
      split at returned
      · rename_i done
        cases returned
        exact leaves_done _ data off content [] within done so_far
      · cases returned
  | cons turn rest ih =>
      rw [pwrite_all] at returned
      split at returned
      · rename_i done
        cases returned
        exact leaves_done _ data off content _ within done so_far
      · dsimp only at returned
        cases reply : turn.reply with
        | interrupted =>
            rw [reply] at returned
            exact ih off content within so_far returned
        | failed errno =>
            rw [reply] at returned
            cases returned
            exact leaves_stopped _ data off _ content rest within so_far
        | moved count =>
            rw [reply] at returned
            dsimp only at returned
            split at returned
            · cases returned
              exact leaves_stopped _ data off _ content rest within so_far
            · exact ih _ _ (by omega) (overwrite_next base offset off data _ content within so_far) returned

theorem async_pwrite_all_leaves (offset : Nat) (data base : Bytes) (turns : List Turn) (off : Nat) (content : Bytes)
    (written : Written) (within : off ≤ data.length) (so_far : content = overwrite 0 base offset (data.take off))
    (returned : async_pwrite_all message offset data turns off content = some written) :
    Leaves (overwrite 0 base offset) data written := by
  induction turns generalizing off content with
  | nil =>
      rw [async_pwrite_all] at returned
      split at returned
      · rename_i done
        cases returned
        exact leaves_done _ data off content [] within done so_far
      · cases returned
  | cons turn rest ih =>
      rw [async_pwrite_all] at returned
      split at returned
      · rename_i done
        cases returned
        exact leaves_done _ data off content _ within done so_far
      · dsimp only at returned
        split at returned
        · cases returned
          exact leaves_stopped _ data off _ content _ within so_far
        · cases reply : turn.reply with
          | interrupted =>
              rw [reply] at returned
              cases returned
              exact leaves_stopped _ data off _ content rest within so_far
          | failed code =>
              rw [reply] at returned
              cases returned
              exact leaves_stopped _ data off _ content rest within so_far
          | moved count =>
              rw [reply] at returned
              dsimp only at returned
              have next := overwrite_next base offset off data (min (data.length - off) count) content within so_far
              have reach : off + min (data.length - off) count ≤ data.length := by omega
              split at returned
              · cases returned
                exact leaves_stopped _ data _ _ _ rest reach next
              · split at returned
                · cases returned
                  exact leaves_stopped _ data _ _ _ rest reach next
                · exact ih _ _ reach next returned

theorem append_all_leaves (path : String) (data base : Bytes) (turns : List Turn) (off : Nat) (content : Bytes)
    (written : Written) (within : off ≤ data.length) (so_far : content = base ++ data.take off)
    (returned : append_all strerror path data turns off content = some written) : Leaves (base ++ ·) data written := by
  induction turns generalizing off content with
  | nil =>
      rw [append_all] at returned
      split at returned
      · rename_i done
        cases returned
        exact leaves_done _ data off content [] within done so_far
      · cases returned
  | cons turn rest ih =>
      rw [append_all] at returned
      split at returned
      · rename_i done
        cases returned
        exact leaves_done _ data off content _ within done so_far
      · dsimp only at returned
        cases reply : turn.reply with
        | interrupted =>
            rw [reply] at returned
            exact ih off content within so_far returned
        | failed errno =>
            rw [reply] at returned
            cases returned
            exact leaves_stopped _ data off _ content rest within so_far
        | moved count =>
            rw [reply] at returned
            dsimp only at returned
            split at returned
            · cases returned
              exact leaves_stopped _ data off _ content rest within so_far
            · refine ih _ _ (by omega) ?_ returned
              rw [so_far, List.append_assoc, take_slice]

end loops

section steps

variable {α β : Type}

theorem checked_cases (file : File) (check : Except Error β) (next : β → Step α) (result : Except Error α) (after : File)
    (returned : checked file check next = some (result, after)) :
    (∃ error, result = .error error ∧ after = file) ∨ ∃ value, check = .ok value ∧ next value = some (result, after) := by
  cases check with
  | error error =>
      cases returned
      exact Or.inl ⟨error, rfl, rfl⟩
  | ok value => exact Or.inr ⟨value, rfl, returned⟩

theorem left_cases (file : File) (step : Option (Except Error β)) (next : β → Step α) (result : Except Error α) (after : File)
    (returned : file.left step next = some (result, after)) :
    (∃ error, result = .error error ∧ after = file) ∨ ∃ value, step = some (.ok value) ∧ next value = some (result, after) := by
  cases step with
  | none => cases returned
  | some step =>
      cases step with
      | error error =>
          cases returned
          exact Or.inl ⟨error, rfl, rfl⟩
      | ok value => exact Or.inr ⟨value, rfl, returned⟩

-- What a write leaves, whether it answers or not.
theorem wrote_cases (file : File) (grown : Bytes → Bytes) (data : Bytes) (step : Option Written)
    (next : Nat → File → List Turn → Step Nat) (result : Except Error Nat) (after : File)
    (leaves : ∀ written, step = some written → Leaves grown data written)
    (returned : file.wrote step next = some (result, after)) :
    (∃ error, result = .error error ∧ ∃ count ≤ data.length, after = { file with content := grown (data.take count) }) ∨
      ∃ rest, next data.length { file with content := grown data } rest = some (result, after) := by
  cases step with
  | none => cases returned
  | some written =>
      obtain ⟨⟨count, within, front⟩, whole⟩ := leaves written rfl
      rw [File.wrote] at returned
      cases outcome : written.result with
      | error error =>
          rw [outcome] at returned
          cases returned
          exact Or.inl ⟨error, rfl, count, within, by rw [front]⟩
      | ok off =>
          obtain ⟨all, content⟩ := whole off outcome
          rw [outcome] at returned
          dsimp only at returned
          rw [content, all] at returned
          exact Or.inr ⟨written.turns, returned⟩

theorem blocking_cases (stops : Stops) (file : File) (work : Step α) (result : Except Error α) (after : File)
    (returned : run_blocking stops file work = some (result, after)) :
    (∃ error, result = .error error ∧ after = file) ∨
      ∃ inner, work = some (inner, after) ∧ (result = inner ∨ ∃ error, result = .error error) := by
  unfold run_blocking at returned
  split at returned
  · cases returned
    exact Or.inl ⟨_, rfl, rfl⟩
  · cases work with
    | none => cases returned
    | some step =>
        obtain ⟨inner, last⟩ := step
        cases returned
        refine Or.inr ⟨inner, rfl, ?_⟩
        split
        · exact Or.inr ⟨_, rfl⟩
        · exact Or.inl rfl

theorem answering_cases (answer : α → Answer) (step : Step α) (outcome : Except Error Answer) (after : File)
    (returned : answering answer step = some (outcome, after)) : ∃ result, step = some (result, after) ∧ outcome = result.map answer := by
  cases step with
  | none => cases returned
  | some step =>
      cases returned
      exact ⟨step.1, rfl, rfl⟩

theorem advancing_cases (moved : α → Nat) (step : Step α) (result : Except Error α) (after : File)
    (returned : advancing moved step = some (result, after)) :
    (∃ error, result = .error error ∧ ∃ inner, step = some (inner, after)) ∨
      ∃ value before, result = .ok value ∧ step = some (.ok value, before) ∧ offset_add_ok before.offset (moved value) = true ∧
        after = { before with offset := before.offset + moved value } := by
  cases step with
  | none => cases returned
  | some step =>
      obtain ⟨inner, before⟩ := step
      cases inner with
      | error error =>
          cases returned
          exact Or.inl ⟨error, rfl, .error error, rfl⟩
      | ok value =>
          simp only [advancing, File.advance_cursor] at returned
          cases fits : offset_add_ok before.offset (moved value) with
          | false =>
              simp only [fits, Bool.not_false, if_true, refuse, Option.some.injEq, Prod.mk.injEq] at returned
              obtain ⟨rfl, rfl⟩ := returned
              exact Or.inl ⟨_, rfl, .ok value, rfl⟩
          | true =>
              simp only [fits, Bool.not_true, Bool.false_eq_true, if_false, Option.some.injEq, Prod.mk.injEq] at returned
              obtain ⟨rfl, rfl⟩ := returned
              exact Or.inr ⟨value, before, rfl, rfl, fits, rfl⟩

end steps

section methods

variable (strerror message : Nat → String) (file : File)

theorem resolve_limit (max_bytes lim : Nat) (resolved : resolve_read_max max_bytes = .ok lim) :
    lim = readLimit max_bytes ∧ lim ≤ kHardMaxReadBytes := by
  rw [resolve_read_max] at resolved
  rw [readLimit]
  split at resolved
  · rename_i all
    cases resolved
    rw [if_pos all]
    exact ⟨rfl, by decide⟩
  · rename_i other
    split at resolved
    · cases resolved
    · rename_i small
      cases resolved
      rw [if_neg other]
      exact ⟨rfl, by omega⟩

theorem limit_again (lim : Nat) (small : lim ≤ kHardMaxReadBytes) : resolve_read_max lim = .ok lim := by
  have below : kHardMaxReadBytes < SIZE_MAX := by decide
  rw [resolve_read_max, if_neg (by omega), if_neg (by omega)]

theorem open_cases (checked_ : file.ensure_open = .ok ()) : file.closed = false := by
  rw [File.ensure_open] at checked_
  split at checked_
  · cases checked_
  · rename_i opened
    exact Bool.eq_false_iff.mpr opened

-- A positioned read leaves everything, and gives the bytes that are there.
def ReadsAt (offset lim : Nat) (result : Except Error Bytes) (after : File) : Prop :=
  after = file ∧ ∀ data, result = .ok data → file.closed = false ∧ data = slice file.content offset lim

theorem read_at_reads (offset lim : Nat) (small : lim ≤ kHardMaxReadBytes) (turns : List Turn) (result : Except Error Bytes) (after : File)
    (returned : file.read_at strerror offset lim turns = some (result, after)) : ReadsAt file offset lim result after := by
  rw [File.read_at, limit_again lim small] at returned
  dsimp only [checked] at returned
  rcases checked_cases file _ _ result after returned with ⟨error, rfl, rfl⟩ | ⟨_, opened, returned⟩
  · exact ⟨rfl, fun data none_ => (by cases none_)⟩
  · have opened := open_cases file opened
    split at returned
    · rename_i zero
      cases returned
      refine ⟨rfl, ?_⟩
      rintro data same
      cases same
      rw [zero, slice_zero]
      exact ⟨opened, rfl⟩
    · rcases checked_cases file _ _ result after returned with ⟨error, rfl, rfl⟩ | ⟨_, _, returned⟩
      · exact ⟨rfl, fun data none_ => (by cases none_)⟩
      · rcases left_cases file _ _ result after returned with ⟨error, rfl, rfl⟩ | ⟨buf, read, returned⟩
        · exact ⟨rfl, fun data none_ => (by cases none_)⟩
        · cases returned
          refine ⟨rfl, ?_⟩
          rintro data same
          cases same
          exact ⟨opened, pread_all_exact strerror file "readAt" offset lim turns [] buf rfl (Nat.zero_le _) read⟩

theorem async_read_at_reads (offset lim : Nat) (small : lim ≤ kHardMaxReadBytes) (stopped : Bool) (turns : List Turn)
    (result : Except Error Bytes) (after : File)
    (returned : file.async_read_at message offset lim stopped turns = some (result, after)) : ReadsAt file offset lim result after := by
  rw [File.async_read_at, limit_again lim small] at returned
  split at returned
  · cases returned
    exact ⟨rfl, fun data none_ => (by cases none_)⟩
  · rename_i opened
    have opened : file.closed = false := Bool.eq_false_iff.mpr opened
    dsimp only [checked] at returned
    split at returned
    · rename_i zero
      cases returned
      refine ⟨rfl, ?_⟩
      rintro data same
      cases same
      rw [zero, slice_zero]
      exact ⟨opened, rfl⟩
    · rcases checked_cases file _ _ result after returned with ⟨error, rfl, rfl⟩ | ⟨_, _, returned⟩
      · exact ⟨rfl, fun data none_ => (by cases none_)⟩
      · split at returned
        · cases returned
          exact ⟨rfl, fun data none_ => (by cases none_)⟩
        · rcases left_cases file _ _ result after returned with ⟨error, rfl, rfl⟩ | ⟨buf, read, returned⟩
          · exact ⟨rfl, fun data none_ => (by cases none_)⟩
          · cases returned
            refine ⟨rfl, ?_⟩
            rintro data same
            cases same
            exact ⟨opened, async_pread_all_exact message file offset lim turns [] buf rfl (Nat.zero_le _) read⟩

-- A positioned write leaves the front of its data, and all of it where it answers.
def WritesAt (offset : Nat) (data : Bytes) (result : Except Error Nat) (after : File) : Prop :=
  (∃ count ≤ data.length, after = { file with content := overwrite 0 file.content offset (data.take count) }) ∧
    ∀ off, result = .ok off →
      file.closed = false ∧ off = data.length ∧ after = { file with content := overwrite 0 file.content offset data }

theorem writes_refused (offset : Nat) (data : Bytes) (error : Error) : WritesAt file offset data (.error error) file := by
  refine ⟨⟨0, Nat.zero_le _, ?_⟩, fun off none_ => (by cases none_)⟩
  rw [List.take_zero, overwrite_nil]

theorem writes_nothing (offset : Nat) (data : Bytes) (opened : file.closed = false) (none_ : data = []) :
    WritesAt file offset data (.ok 0) file := by
  subst none_
  refine ⟨⟨0, Nat.le_refl _, by rw [List.take_zero, overwrite_nil]⟩, ?_⟩
  rintro off same
  cases same
  exact ⟨opened, rfl, by rw [overwrite_nil]⟩

theorem wrote_writes (offset : Nat) (data : Bytes) (step : Option Written) (opened : file.closed = false)
    (leaves : ∀ written, step = some written → Leaves (overwrite 0 file.content offset) data written) (result : Except Error Nat)
    (after : File) (returned : file.wrote step (fun off after _ => some (.ok off, after)) = some (result, after)) :
    WritesAt file offset data result after := by
  rcases wrote_cases file _ data step _ result after leaves returned with ⟨error, rfl, count, within, rfl⟩ | ⟨rest, returned⟩
  · exact ⟨⟨count, within, rfl⟩, fun off none_ => (by cases none_)⟩
  · cases returned
    refine ⟨⟨data.length, Nat.le_refl _, by rw [List.take_length]⟩, ?_⟩
    rintro off same
    cases same
    exact ⟨opened, rfl, rfl⟩

theorem write_at_writes (offset : Nat) (data : Bytes) (turns : List Turn) (result : Except Error Nat) (after : File)
    (returned : file.write_at strerror offset data turns = some (result, after)) : WritesAt file offset data result after := by
  rw [File.write_at] at returned
  rcases checked_cases file _ _ result after returned with ⟨error, rfl, rfl⟩ | ⟨_, opened, returned⟩
  · exact writes_refused after offset data error
  · have opened := open_cases file opened
    split at returned
    · cases returned
      exact writes_refused file offset data _
    · split at returned
      · rename_i none_
        cases returned
        exact writes_nothing file offset data opened none_
      · rcases checked_cases file _ _ result after returned with ⟨error, rfl, rfl⟩ | ⟨_, _, returned⟩
        · exact writes_refused after offset data error
        · refine wrote_writes file offset data _ opened ?_ result after returned
          exact fun written => pwrite_all_leaves strerror _ _ offset data file.content turns 0 file.content written (Nat.zero_le _)
            (by rw [List.take_zero, overwrite_nil])

theorem async_write_at_writes (offset : Nat) (data : Bytes) (stopped : Bool) (turns : List Turn) (result : Except Error Nat)
    (after : File) (returned : file.async_write_at message offset data stopped turns = some (result, after)) :
    WritesAt file offset data result after := by
  rw [File.async_write_at] at returned
  split at returned
  · cases returned
    exact writes_refused file offset data _
  · rename_i opened
    have opened : file.closed = false := Bool.eq_false_iff.mpr opened
    split at returned
    · cases returned
      exact writes_refused file offset data _
    · split at returned
      · rename_i none_
        cases returned
        exact writes_nothing file offset data opened none_
      · rcases checked_cases file _ _ result after returned with ⟨error, rfl, rfl⟩ | ⟨_, _, returned⟩
        · exact writes_refused after offset data error
        · split at returned
          · cases returned
            exact writes_refused file offset data _
          · refine wrote_writes file offset data _ opened ?_ result after returned
            exact fun written => async_pwrite_all_leaves message offset data file.content turns 0 file.content written (Nat.zero_le _)
              (by rw [List.take_zero, overwrite_nil])

theorem read_reads (lim : Nat) (small : lim ≤ kHardMaxReadBytes) (turns : List Turn) (result : Except Error Bytes) (after : File)
    (returned : file.read strerror lim turns = some (result, after)) :
    (∃ error, result = .error error ∧ after = file) ∨
      ∃ data, result = .ok data ∧ file.closed = false ∧ data = slice file.content file.offset lim ∧
        after = { file with offset := file.offset + data.length } := by
  rw [File.read, limit_again lim small] at returned
  dsimp only [checked] at returned
  rcases checked_cases file _ _ result after returned with ⟨error, rfl, rfl⟩ | ⟨_, opened, returned⟩
  · exact Or.inl ⟨error, rfl, rfl⟩
  · have opened := open_cases file opened
    split at returned
    · rename_i zero
      cases returned
      refine Or.inr ⟨[], rfl, opened, ?_, rfl⟩
      rw [zero, slice_zero]
    · rcases checked_cases file _ _ result after returned with ⟨error, rfl, rfl⟩ | ⟨_, _, returned⟩
      · exact Or.inl ⟨error, rfl, rfl⟩
      · rcases left_cases file _ _ result after returned with ⟨error, rfl, rfl⟩ | ⟨buf, read, returned⟩
        · exact Or.inl ⟨error, rfl, rfl⟩
        · split at returned
          · cases returned
            exact Or.inl ⟨_, rfl, rfl⟩
          · cases returned
            exact Or.inr ⟨buf, rfl, opened, pread_all_exact strerror file "read" file.offset lim turns [] buf rfl (Nat.zero_le _) read, rfl⟩

theorem write_writes (data : Bytes) (positioned : file.is_append_mode = false) (turns : List Turn) (result : Except Error Nat)
    (after : File) (returned : file.write strerror data turns = some (result, after)) :
    (∃ error, result = .error error ∧
      ∃ count ≤ data.length, after = { file with content := overwrite 0 file.content file.offset (data.take count) }) ∨
      (result = .ok data.length ∧ file.closed = false ∧
        after = { file with content := overwrite 0 file.content file.offset data, offset := file.offset + data.length }) := by
  have nothing : ∀ error, ∃ other, (.error error : Except Error Nat) = .error other ∧
      ∃ count ≤ data.length, file = { file with content := overwrite 0 file.content file.offset (data.take count) } :=
    fun error => ⟨error, rfl, 0, Nat.zero_le _, by rw [List.take_zero, overwrite_nil]⟩
  rw [File.write, positioned, if_neg Bool.false_ne_true] at returned
  rcases checked_cases file _ _ result after returned with ⟨error, rfl, rfl⟩ | ⟨_, opened, returned⟩
  · exact Or.inl (nothing error)
  · have opened := open_cases file opened
    split at returned
    · rename_i none_
      cases returned
      subst none_
      exact Or.inr ⟨rfl, opened, by rw [overwrite_nil]; rfl⟩
    · rcases checked_cases file _ _ result after returned with ⟨error, rfl, rfl⟩ | ⟨_, _, returned⟩
      · exact Or.inl (nothing error)
      · have leaves := fun written => pwrite_all_leaves strerror file.display_path "write" file.offset data file.content turns 0 file.content
          written (Nat.zero_le _) (by rw [List.take_zero, overwrite_nil])
        rcases wrote_cases file _ data _ _ result after leaves returned with ⟨error, rfl, count, within, rfl⟩ | ⟨rest, returned⟩
        · exact Or.inl ⟨error, rfl, count, within, rfl⟩
        · split at returned
          · cases returned
            exact Or.inl ⟨_, rfl, data.length, Nat.le_refl _, by rw [List.take_length]⟩
          · cases returned
            exact Or.inr ⟨rfl, opened, rfl⟩

theorem append_writes (data : Bytes) (mode : file.is_append_mode = true) (turns : List Turn) (result : Except Error Nat) (after : File)
    (returned : file.append_write strerror data turns = some (result, after)) :
    (∃ error, result = .error error ∧ ∃ count ≤ data.length, after = { file with content := file.content ++ data.take count }) ∨
      (result = .ok data.length ∧ file.closed = false ∧
        (after.plain = file.plain.written data ∨
          ∃ cursor, after.plain = { file.plain.written data with cursor := cursor } ∧
            (cursor = file.offset ∨ cursor = file.offset + data.length))) := by
  rw [File.append_write] at returned
  rcases checked_cases file _ _ result after returned with ⟨error, rfl, rfl⟩ | ⟨_, opened, returned⟩
  · exact Or.inl ⟨error, rfl, 0, Nat.zero_le _, by rw [List.take_zero, List.append_nil]⟩
  · have opened := open_cases file opened
    split at returned
    · rename_i none_
      cases returned
      subst none_
      exact Or.inr ⟨rfl, opened, Or.inl rfl⟩
    · rename_i some_
      have leaves := fun written => append_all_leaves strerror file.display_path data file.content turns 0 file.content
        written (Nat.zero_le _) (by rw [List.take_zero, List.append_nil])
      have grown : file.plain.written data =
          { file.plain with content := file.content ++ data, cursor := st_size (file.content ++ data) } := by
        rw [Plain.written, if_neg some_, if_pos (show file.plain.appends = true from mode)]
        rfl
      rcases wrote_cases file _ data _ _ result after leaves returned with ⟨error, rfl, count, within, rfl⟩ | ⟨rest, returned⟩
      · exact Or.inl ⟨error, rfl, count, within, rfl⟩
      · cases rest with
        | nil => cases returned
        | cons turn more =>
            have slow : some ((.ok data.length : Except Error Nat),
                if offset_add_ok file.offset data.length = true then
                  { file with content := file.content ++ data, offset := file.offset + data.length }
                else { file with content := file.content ++ data }) = some (result, after) →
                  result = .ok data.length ∧ ∃ cursor, after.plain = { file.plain.written data with cursor := cursor } ∧
                    (cursor = file.offset ∨ cursor = file.offset + data.length) := by
              intro same
              cases same
              refine ⟨rfl, ?_⟩
              rw [grown]
              split
              · exact ⟨_, rfl, Or.inr rfl⟩
              · exact ⟨_, rfl, Or.inl rfl⟩
            rw [File.measured] at returned
            cases reply : turn.reply with
            | moved count =>
                rw [reply] at returned
                cases returned
                exact Or.inr ⟨rfl, opened, Or.inl grown.symm⟩
            | failed errno =>
                rw [reply] at returned
                exact Or.inr ⟨(slow returned).1, opened, Or.inr (slow returned).2⟩
            | interrupted =>
                rw [reply] at returned
                exact Or.inr ⟨(slow returned).1, opened, Or.inr (slow returned).2⟩

theorem control_cases (op : String) (turns : List Turn) (done : Step Unit) (result : Except Error Unit) (after : File)
    (returned : file.control strerror op turns done = some (result, after)) :
    (∃ error, result = .error error ∧ after = file) ∨ done = some (result, after) := by
  cases turns with
  | nil => cases returned
  | cons turn rest =>
      rw [File.control] at returned
      cases reply : turn.reply with
      | interrupted =>
          rw [reply] at returned
          cases returned
          exact Or.inl ⟨_, rfl, rfl⟩
      | failed errno =>
          rw [reply] at returned
          cases returned
          exact Or.inl ⟨_, rfl, rfl⟩
      | moved count =>
          rw [reply] at returned
          exact Or.inr returned

end methods

section behaviour

variable (strerror message : Nat → String)

theorem behaves_refused (plain : Plain) (op : FileOp) (error : Error) : Behaves plain op (.error error) plain := Or.inl rfl

theorem behaves_dropped (plain : Plain) (op : FileOp) (outcome : Except Error Answer) (after : Plain) (error : Error)
    (behaves : Behaves plain op outcome after) : Behaves plain op (.error error) after := by
  cases outcome with
  | error other => exact behaves
  | ok answer => exact Or.inr (Or.inl ⟨answer, behaves⟩)

theorem behaves_blocking {α : Type} (file : File) (op : FileOp) (answer : α → Answer) (stops : Stops) (work : Step α)
    (sound : ∀ result after, work = some (result, after) → Behaves file.plain op (result.map answer) after.plain)
    (result : Except Error α) (after : File) (returned : run_blocking stops file work = some (result, after)) :
    Behaves file.plain op (result.map answer) after.plain := by
  rcases blocking_cases stops file work result after returned with ⟨error, rfl, rfl⟩ | ⟨inner, done, same⟩
  · exact behaves_refused _ op error
  · have behaves := sound inner after done
    rcases same with rfl | ⟨error, rfl⟩
    · exact behaves
    · exact behaves_dropped _ op _ _ error behaves

theorem read_at_behaves (file : File) (offset max_bytes lim : Nat) (resolved : lim = readLimit max_bytes) (result : Except Error Bytes)
    (after : File) (reads : ReadsAt file offset lim result after) :
    Behaves file.plain (.readAt offset max_bytes) (result.map .bytes) after.plain := by
  obtain ⟨rfl, exact_⟩ := reads
  cases result with
  | error error => exact behaves_refused _ _ error
  | ok data =>
      obtain ⟨opened, same⟩ := exact_ data rfl
      exact ⟨Or.inl opened, by rw [same, resolved]; rfl, Or.inl rfl⟩

theorem write_at_behaves (file : File) (offset : Nat) (data : Bytes) (result : Except Error Nat) (after : File)
    (writes : WritesAt file offset data result after) :
    Behaves file.plain (.writeAt offset data) (result.map .count) after.plain := by
  obtain ⟨⟨count, within, front⟩, whole⟩ := writes
  cases result with
  | error error => exact Or.inr (Or.inr ⟨count, within, by rw [front]; rfl⟩)
  | ok off =>
      obtain ⟨opened, rfl, rfl⟩ := whole off rfl
      exact ⟨Or.inl opened, rfl, Or.inl rfl⟩

theorem read_completes (file : File) (max_bytes : Option Nat) (lim : Nat) (resolved : lim = readLimit (max_bytes.getD SIZE_MAX))
    (opened : file.closed = false) :
    Completes file.plain (.read max_bytes) (.bytes (slice file.content file.offset lim))
      { file.plain with cursor := file.offset + (slice file.content file.offset lim).length } := by
  subst resolved
  exact ⟨Or.inl opened, rfl, Or.inl rfl⟩

theorem written_at (plain : Plain) (positioned : plain.appends = false) (data : Bytes) :
    plain.written data = { plain with content := overwrite 0 plain.content plain.cursor data, cursor := plain.cursor + data.length } := by
  rw [Plain.written, positioned]
  split
  · rename_i none_
    subst none_
    rw [overwrite_nil, ← positioned]
    rfl
  · rfl

theorem appended_at (plain : Plain) (mode : plain.appends = true) (data : Bytes) :
    (plain.written data).content = plain.content ++ data := by
  rw [Plain.written, mode]
  split
  · rename_i none_
    rw [none_, List.append_nil]
  · rfl

-- A write at the cursor that left a front of its data and the cursor where it was.
theorem write_breaks (file : File) (positioned : file.is_append_mode = false) (data : Bytes) (count : Nat) (within : count ≤ data.length) :
    Breaks file.plain (.write data) { file.plain with content := overwrite 0 file.content file.offset (data.take count) } := by
  refine Or.inr (Or.inr ⟨count, within, ?_⟩)
  rw [FileOp.front, Plain.meaning, written_at file.plain positioned]
  rfl

theorem write_completes (file : File) (positioned : file.is_append_mode = false) (data : Bytes) (opened : file.closed = false) :
    Completes file.plain (.write data) (.count data.length)
      { file.plain with content := overwrite 0 file.content file.offset data, cursor := file.offset + data.length } := by
  refine ⟨Or.inl opened, rfl, Or.inl ?_⟩
  rw [Plain.meaning, written_at file.plain positioned]
  rfl

theorem write_behaves (file : File) (data : Bytes) (positioned : file.is_append_mode = false) (stops : Stops) (turns : List Turn)
    (result : Except Error Nat) (after : File)
    (returned : (if file.use_asio then advancing id (file.async_write_at message file.offset data stops.worker turns)
      else run_blocking stops file (file.write strerror data turns)) = some (result, after)) :
    Behaves file.plain (.write data) (result.map .count) after.plain := by
  split at returned
  · rcases advancing_cases _ _ result after returned with ⟨error, rfl, inner, wrote⟩ | ⟨off, before, rfl, wrote, _, rfl⟩
    · obtain ⟨⟨count, within, rfl⟩, _⟩ := async_write_at_writes message file _ data _ turns inner after wrote
      exact write_breaks file positioned data count within
    · obtain ⟨_, whole⟩ := async_write_at_writes message file _ data _ turns _ before wrote
      obtain ⟨opened, rfl, rfl⟩ := whole off rfl
      exact write_completes file positioned data opened
  · refine behaves_blocking file _ _ stops _ ?_ result after returned
    intro result after step
    rcases write_writes strerror file data positioned turns result after step with ⟨error, rfl, count, within, rfl⟩ | ⟨rfl, opened, rfl⟩
    · exact write_breaks file positioned data count within
    · exact write_completes file positioned data opened

theorem truncate_behaves (file : File) (size : Nat) (turns : List Turn) (result : Except Error Unit) (after : File)
    (returned : file.truncate strerror size turns = some (result, after)) :
    Behaves file.plain (.truncate size) (result.map fun _ => .done) after.plain := by
  rw [File.truncate] at returned
  rcases checked_cases file _ _ result after returned with ⟨error, rfl, rfl⟩ | ⟨_, opened, returned⟩
  · exact behaves_refused _ _ error
  · have opened := open_cases file opened
    split at returned
    · cases returned
      exact behaves_refused _ _ _
    · rcases control_cases strerror file _ turns _ result after returned with ⟨error, rfl, rfl⟩ | done
      · exact behaves_refused _ _ error
      · cases done
        exact ⟨Or.inl opened, rfl, Or.inl rfl⟩

theorem flush_behaves (file : File) (turns : List Turn) (result : Except Error Unit) (after : File)
    (returned : file.flush strerror turns = some (result, after)) :
    Behaves file.plain .flush (result.map fun _ => .done) after.plain := by
  rw [File.flush] at returned
  rcases checked_cases file _ _ result after returned with ⟨error, rfl, rfl⟩ | ⟨_, opened, returned⟩
  · exact behaves_refused _ _ error
  · rcases control_cases strerror file _ turns _ result after returned with ⟨error, rfl, rfl⟩ | done
    · exact behaves_refused _ _ error
    · cases done
      exact ⟨Or.inl (open_cases _ opened), rfl, Or.inl rfl⟩

theorem close_behaves (file : File) (result : Except Error Unit) (after : File) (returned : file.close = some (result, after)) :
    Behaves file.plain .close (result.map fun _ => .done) after.plain := by
  rw [File.close] at returned
  cases returned
  refine ⟨Or.inr rfl, rfl, Or.inl ?_⟩
  split
  · rename_i closed
    rw [Plain.meaning, File.plain, closed]
  · rfl

-- One method, with any replies of the system.
theorem perform_behaves (file : File) (op : FileOp) (stops : Stops) (turns : List Turn) (outcome : Except Error Answer) (after : File)
    (returned : file.perform strerror message op stops turns = some (outcome, after)) :
    Behaves file.plain op outcome after.plain := by
  cases op with
  | read max_bytes =>
      rw [File.perform] at returned
      split at returned
      · cases returned
        exact behaves_refused _ _ _
      · rcases checked_cases file _ _ outcome after returned with ⟨error, rfl, rfl⟩ | ⟨lim, resolved, returned⟩
        · exact behaves_refused _ _ _
        · obtain ⟨result, step, rfl⟩ := answering_cases _ _ outcome after returned
          obtain ⟨limit, small⟩ := resolve_limit _ lim resolved
          split at step
          · rcases advancing_cases _ _ result after step with ⟨error, rfl, inner, read⟩ | ⟨data, before, rfl, read, _, rfl⟩
            · rw [(async_read_at_reads message file _ lim small _ _ _ _ read).1]
              exact behaves_refused _ _ _
            · obtain ⟨rfl, exact_⟩ := async_read_at_reads message file _ lim small _ _ _ _ read
              obtain ⟨opened, rfl⟩ := exact_ data rfl
              exact read_completes before max_bytes lim limit opened
          · refine behaves_blocking file _ _ stops _ ?_ result after step
            intro result after step
            rcases read_reads strerror file lim small turns result after step with ⟨error, rfl, rfl⟩ | ⟨data, rfl, opened, rfl, rfl⟩
            · exact behaves_refused _ _ _
            · exact read_completes file max_bytes lim limit opened
  | readAt offset max_bytes =>
      rw [File.perform] at returned
      split at returned
      · cases returned
        exact behaves_refused _ _ _
      · rcases checked_cases file _ _ outcome after returned with ⟨error, rfl, rfl⟩ | ⟨lim, resolved, returned⟩
        · exact behaves_refused _ _ _
        · obtain ⟨result, step, rfl⟩ := answering_cases _ _ outcome after returned
          obtain ⟨limit, small⟩ := resolve_limit _ lim resolved
          split at step
          · exact read_at_behaves file offset max_bytes lim limit result after
              (async_read_at_reads message file offset lim small _ turns result after step)
          · refine behaves_blocking file _ _ stops _ ?_ result after step
            intro result after step
            exact read_at_behaves file offset max_bytes lim limit result after
              (read_at_reads strerror file offset lim small turns result after step)
  | write data =>
      rw [File.perform] at returned
      split at returned
      · cases returned
        exact behaves_refused _ _ _
      · obtain ⟨result, step, rfl⟩ := answering_cases _ _ outcome after returned
        cases mode : file.is_append_mode with
        | true =>
            rw [mode, if_pos rfl] at step
            refine behaves_blocking file _ _ stops _ ?_ result after step
            intro result after step
            rcases append_writes strerror file data mode turns result after step with ⟨error, rfl, count, within, rfl⟩ | ⟨rfl, opened, left⟩
            · refine Or.inr (Or.inr ⟨count, within, ?_⟩)
              rw [FileOp.front, Plain.meaning, appended_at file.plain mode]
              rfl
            · refine ⟨Or.inl opened, rfl, ?_⟩
              rcases left with same | ⟨cursor, same, moved⟩
              · exact Or.inl same
              · exact Or.inr ⟨mode, data, cursor, rfl, same, moved⟩
        | false =>
            rw [mode, if_neg Bool.false_ne_true] at step
            exact write_behaves strerror message file data mode stops turns result after step
  | writeAt offset data =>
      rw [File.perform] at returned
      split at returned
      · cases returned
        exact behaves_refused _ _ _
      · split at returned
        · cases returned
          exact behaves_refused _ _ _
        · obtain ⟨result, step, rfl⟩ := answering_cases _ _ outcome after returned
          split at step
          · exact write_at_behaves file offset data result after (async_write_at_writes message file offset data _ turns result after step)
          · refine behaves_blocking file _ _ stops _ ?_ result after step
            intro result after step
            exact write_at_behaves file offset data result after (write_at_writes strerror file offset data turns result after step)
  | truncate size =>
      rw [File.perform] at returned
      split at returned
      · cases returned
        exact behaves_refused _ _ _
      · obtain ⟨result, step, rfl⟩ := answering_cases _ _ outcome after returned
        refine behaves_blocking file _ _ stops _ ?_ result after step
        exact fun result after => truncate_behaves strerror file size turns result after
  | flush =>
      rw [File.perform] at returned
      split at returned
      · cases returned
        exact behaves_refused _ _ _
      · obtain ⟨result, step, rfl⟩ := answering_cases _ _ outcome after returned
        refine behaves_blocking file _ _ stops _ ?_ result after step
        exact fun result after => flush_behaves strerror file turns result after
  | close =>
      rw [File.perform] at returned
      split at returned
      · cases returned
        exact behaves_refused _ _ _
      · obtain ⟨result, step, rfl⟩ := answering_cases _ _ outcome after returned
        split at step
        · exact close_behaves file result after step
        · refine behaves_blocking file _ _ stops _ ?_ result after step
          exact fun result after => close_behaves file result after

end behaviour

-- What happens to a file: a call of its handle, or a change that others make to its bytes in between.
inductive Happening (Entry : Type) where
  | called (entry : Entry)
  | changed (content : Bytes)
deriving DecidableEq, Repr

def Happening.map {Entry Other : Type} (f : Entry → Other) : Happening Entry → Happening Other
  | .called entry => .called (f entry)
  | .changed content => .changed content

structure Call where
  op : FileOp
  stops : Stops
  turns : List Turn

def Plain.changed (plain : Plain) (content : Bytes) : Plain := { plain with content := content }

-- What a handle may be seen to do.
inductive Told : Plain → List (Happening (FileOp × Except Error Answer)) → Plain → Prop where
  | done (plain : Plain) : Told plain [] plain
  | called (plain after last : Plain) (op : FileOp) (outcome : Except Error Answer)
      (rest : List (Happening (FileOp × Except Error Answer))) (behaves : Behaves plain op outcome after) (told : Told after rest last) :
      Told plain (.called (op, outcome) :: rest) last
  | changed (plain last : Plain) (content : Bytes) (rest : List (Happening (FileOp × Except Error Answer)))
      (told : Told (plain.changed content) rest last) : Told plain (.changed content :: rest) last

section runs

variable (strerror message : Nat → String)

def File.run : File → List (Happening Call) → Option (List (Happening (FileOp × Except Error Answer)) × File)
  | file, [] => some ([], file)
  | file, .called call :: rest =>
      match file.perform strerror message call.op call.stops call.turns with
      | none => none
      | some (outcome, after) => (after.run rest).map fun run => (.called (call.op, outcome) :: run.1, run.2)
  | file, .changed content :: rest =>
      (File.run { file with content := content } rest).map fun run => (.changed content :: run.1, run.2)

end runs

end Vacps.Native.Fs
