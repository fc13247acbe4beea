import Mathlib
import Vacps.Library.Extents

/- vacps-native/src/fs/file.cpp and the methods of File in modules/fs.cpp: positioned reads and writes over descriptors
   that move as many bytes at a time as they like, on a blocking backend and on an asynchronous one, and the cursor of
   the handle. The operations of a handle come one at a time; what other programs do to the file happens in between. -/
set_option autoImplicit false

namespace Vacps.Native.Fs

open Library

abbrev Bytes : Type := List UInt8

inductive OpenMode where
  | read
  | read_write
  | write
  | write_new
  | append
  | append_read
deriving DecidableEq, Repr

def open_mode_appends (mode : OpenMode) : Bool := mode == .append || mode == .append_read

inductive Errc where
  | cancelled
  | native_failure
deriving DecidableEq, Repr

structure Error where
  code : Errc
  message : String
  operation : String
  system_code : Nat
deriving DecidableEq, Repr

def ECANCELED : Nat := 125

def EOVERFLOW : Nat := 75

-- runtime::Error::from_domain
def from_domain (message operation : String) (system_code : Nat) : Error :=
  ⟨if system_code = ECANCELED then .cancelled else .native_failure, message, operation, system_code⟩

def cancelled_op (operation : String) : Error := ⟨.cancelled, operation ++ ": operation cancelled", operation, 0⟩

def cancelled : Error := ⟨.cancelled, "operation cancelled", "", 0⟩

-- How one system call ends, or one completion of an asynchronous one.
inductive Reply where
  | interrupted
  | failed (code : Nat)
  | moved (count : Nat)
deriving DecidableEq, Repr

-- A call with what the stop token says before it and after it.
structure Turn where
  before : Bool
  reply : Reply
  after : Bool
deriving DecidableEq, Repr

-- What the stop token says when a method waits for its lease, when its work is begun, and when it has been done.
structure Stops where
  entry : Bool
  worker : Bool
  done : Bool
deriving DecidableEq, Repr

structure File where
  content : Bytes
  use_asio : Bool
  display_path : String
  open_mode : OpenMode
  offset : Nat
  closed : Bool
deriving DecidableEq, Repr

def File.is_append_mode (file : File) : Bool := open_mode_appends file.open_mode

def OFF_MAX : Nat := 2 ^ 63 - 1

def SIZE_MAX : Nat := 2 ^ 64 - 1

def kDefaultMaxReadBytes : Nat := 16 * 1024 * 1024

def kHardMaxReadBytes : Nat := 64 * 1024 * 1024

def kChunk : Nat := 64 * 1024

def offset_ok (offset : Nat) : Bool := offset ≤ OFF_MAX

def offset_add_ok (base delta : Nat) : Bool := !decide (SIZE_MAX - base < delta) && offset_ok (base + delta)

def check_range (offset length : Nat) (op : String) : Except Error Unit :=
  if !offset_ok offset then .error (from_domain (op ++ " offset out of range") op 0)
  else if length = 0 then .ok ()
  else if !offset_add_ok offset (length - 1) then .error (from_domain (op ++ " range overflow") op EOVERFLOW)
  else .ok ()

def resolve_read_max (max_bytes : Nat) : Except Error Nat :=
  if max_bytes = SIZE_MAX then .ok kDefaultMaxReadBytes
  else if kHardMaxReadBytes < max_bytes then
    .error (from_domain ("read maxBytes exceeds hard limit (" ++ toString kHardMaxReadBytes ++ " bytes / 64 MiB)") "read" 0)
  else .ok max_bytes

-- An off_t holds no more.
def st_size (content : Bytes) : Nat := min content.length OFF_MAX

-- An operation's answer and the file it leaves; none while the system has not answered.
abbrev Step (α : Type) : Type := Option (Except Error α × File)

def refuse {α : Type} (file : File) (error : Error) : Step α := some (.error error, file)

def checked {α β : Type} (file : File) (check : Except Error β) (next : β → Step α) : Step α :=
  match check with
  | .ok value => next value
  | .error error => refuse file error

section file

-- strerror, and what Asio's error codes say.
variable (strerror message : Nat → String)

def make_io_error (operation : String) (errnum : Nat) (path : String) : Error :=
  let errstr := if errnum ≠ 0 then strerror errnum else "unknown error"
  from_domain
    (if path = "" then operation ++ " failed: " ++ errstr ++ " (errno=" ++ toString errnum ++ ")"
    else operation ++ " failed (" ++ path ++ "): " ++ errstr ++ " (errno=" ++ toString errnum ++ ")")
    operation errnum

def asio_error (operation : String) (code : Nat) : Error :=
  from_domain (operation ++ " failed: " ++ message code ++ " (code=" ++ toString code ++ ")") operation code

def asio_cancelled (operation : String) : Error := from_domain "operation cancelled" operation ECANCELED

def zero_written (operation : String) : Error := from_domain (operation ++ " failed: zero bytes written") operation 0

def cursor_overflow (operation : String) : Error := from_domain "cursor overflow" operation EOVERFLOW

-- pread gives nothing at the end of the file and only there.
def pread (content : Bytes) (offset want count : Nat) : Bytes := slice content offset (min want (max count 1))

-- The loop of read_at and read.
def pread_all (file : File) (op : String) (offset max_bytes : Nat) : List Turn → Bytes → Option (Except Error Bytes)
  | turns, buf =>
      if max_bytes ≤ buf.length then some (.ok buf)
      else
        match turns with
        | [] => none
        | turn :: rest =>
            match turn.reply with
            | .interrupted => pread_all file op offset max_bytes rest buf
            | .failed errno => some (.error (make_io_error strerror op errno file.display_path))
            | .moved count =>
                let tmp := pread file.content (offset + buf.length) (min kChunk (max_bytes - buf.length)) count
                if tmp = [] then some (.ok buf) else pread_all file op offset max_bytes rest (buf ++ tmp)

def async_pread_all (file : File) (offset max_bytes : Nat) : List Turn → Bytes → Option (Except Error Bytes)
  | turns, buf =>
      if max_bytes ≤ buf.length then some (.ok buf)
      else
        match turns with
        | [] => none
        | turn :: rest =>
            if turn.before then some (.error (asio_cancelled "readAt"))
            else
              match turn.reply with
              | .interrupted => some (.error (if turn.after then asio_cancelled "readAt" else asio_error message "readAt" 4))
              | .failed code =>
                  some (.error (if code = ECANCELED || turn.after then asio_cancelled "readAt" else asio_error message "readAt" code))
              | .moved count =>
                  let tmp := pread file.content (offset + buf.length) (min kChunk (max_bytes - buf.length)) count
                  if tmp = [] then some (.ok buf)
                  else if turn.after then some (.error (asio_cancelled "readAt"))
                  else async_pread_all file offset max_bytes rest (buf ++ tmp)

-- How a write ends: with how many bytes or an error, with the bytes of the file, and the calls that are left.
structure Written where
  result : Except Error Nat
  content : Bytes
  turns : List Turn

-- The loop of write_at and write.
def pwrite_all (path op : String) (offset : Nat) (data : Bytes) : List Turn → Nat → Bytes → Option Written
  | turns, off, content =>
      if data.length ≤ off then some ⟨.ok off, content, turns⟩
      else
        match turns with
        | [] => none
        | turn :: rest =>
            match turn.reply with
            | .interrupted => pwrite_all path op offset data rest off content
            | .failed errno => some ⟨.error (make_io_error strerror op errno path), content, rest⟩
            | .moved count =>
                let n := min (data.length - off) count
                if n = 0 then some ⟨.error (zero_written op), content, rest⟩
                else pwrite_all path op offset data rest (off + n) (overwrite 0 content (offset + off) (slice data off n))

def append_all (path : String) (data : Bytes) : List Turn → Nat → Bytes → Option Written
  | turns, off, content =>
      if data.length ≤ off then some ⟨.ok off, content, turns⟩
      else
        match turns with
        | [] => none
        | turn :: rest =>
            match turn.reply with
            | .interrupted => append_all path data rest off content
            | .failed errno => some ⟨.error (make_io_error strerror "write" errno path), content, rest⟩
            | .moved count =>
                let n := min (data.length - off) count
                if n = 0 then some ⟨.error (zero_written "write"), content, rest⟩
                else append_all path data rest (off + n) (content ++ slice data off n)

def async_pwrite_all (offset : Nat) (data : Bytes) : List Turn → Nat → Bytes → Option Written
  | turns, off, content =>
      if data.length ≤ off then some ⟨.ok off, content, turns⟩
      else
        match turns with
        | [] => none
        | turn :: rest =>
            if turn.before then some ⟨.error (asio_cancelled "writeAt"), content, turns⟩
            else
              match turn.reply with
              | .interrupted =>
                  some ⟨.error (if turn.after then asio_cancelled "writeAt" else asio_error message "writeAt" 4), content, rest⟩
              | .failed code =>
                  some ⟨.error (if code = ECANCELED || turn.after then asio_cancelled "writeAt" else asio_error message "writeAt" code),
                    content, rest⟩
              | .moved count =>
                  let n := min (data.length - off) count
                  let content := overwrite 0 content (offset + off) (slice data off n)
                  if turn.after then some ⟨.error (asio_cancelled "writeAt"), content, rest⟩
                  else if n = 0 then some ⟨.error (zero_written "writeAt"), content, rest⟩
                  else async_pwrite_all offset data rest (off + n) content

def file_closed (operation : String) : Error := from_domain "file is closed" operation 0

namespace File

variable (file : File)

def ensure_open : Except Error Unit := if file.closed then .error (file_closed "io") else .ok ()

def left {α β : Type} (result : Option (Except Error β)) (next : β → Step α) : Step α :=
  match result with
  | none => none
  | some (.error error) => refuse file error
  | some (.ok value) => next value

def read_at (offset max_bytes : Nat) (turns : List Turn) : Step Bytes :=
  checked file (resolve_read_max max_bytes) fun max_bytes =>
    checked file file.ensure_open fun _ =>
      if max_bytes = 0 then some (.ok [], file)
      else
        checked file (check_range offset max_bytes "readAt") fun _ =>
          file.left (pread_all strerror file "readAt" offset max_bytes turns []) fun buf => some (.ok buf, file)

def read (max_bytes : Nat) (turns : List Turn) : Step Bytes :=
  checked file (resolve_read_max max_bytes) fun lim =>
    checked file file.ensure_open fun _ =>
      if lim = 0 then some (.ok [], file)
      else
        checked file (check_range file.offset lim "read") fun _ =>
          file.left (pread_all strerror file "read" file.offset lim turns []) fun buf =>
            if !offset_add_ok file.offset buf.length then refuse file (cursor_overflow "read")
            else some (.ok buf, { file with offset := file.offset + buf.length })

def advance_cursor (delta : Nat) : Except Error File :=
  if !offset_add_ok file.offset delta then .error (cursor_overflow "io") else .ok { file with offset := file.offset + delta }

def wrote (result : Option Written) (next : Nat → File → List Turn → Step Nat) : Step Nat :=
  match result with
  | none => none
  | some written =>
      let after := { file with content := written.content }
      match written.result with
      | .error error => refuse after error
      | .ok off => next off after written.turns

def append_refused : Error :=
  from_domain "writeAt is not supported on append handles; use write() (O_APPEND write)" "writeAt" 0

def write_at (offset : Nat) (data : Bytes) (turns : List Turn) : Step Nat :=
  checked file file.ensure_open fun _ =>
    if file.is_append_mode then refuse file append_refused
    else if data = [] then some (.ok 0, file)
    else
      checked file (check_range offset data.length "writeAt") fun _ =>
        file.wrote (pwrite_all strerror file.display_path "writeAt" offset data turns 0 file.content) fun off after _ => some (.ok off, after)

-- The size is taken over where fstat tells it.
def measured (off : Nat) : List Turn → Step Nat
  | [] => none
  | turn :: _ =>
      match turn.reply with
      | .moved _ => some (.ok off, { file with offset := st_size file.content })
      | _ => some (.ok off, if offset_add_ok file.offset off then { file with offset := file.offset + off } else file)

def append_write (data : Bytes) (turns : List Turn) : Step Nat :=
  checked file file.ensure_open fun _ =>
    if data = [] then some (.ok 0, file)
    else file.wrote (append_all strerror file.display_path data turns 0 file.content) fun off after rest => after.measured off rest

def write (data : Bytes) (turns : List Turn) : Step Nat :=
  if file.is_append_mode then file.append_write strerror data turns
  else
    checked file file.ensure_open fun _ =>
      if data = [] then some (.ok 0, file)
      else
        checked file (check_range file.offset data.length "write") fun _ =>
          file.wrote (pwrite_all strerror file.display_path "write" file.offset data turns 0 file.content) fun off after _ =>
            if !offset_add_ok file.offset off then refuse after (cursor_overflow "write")
            else some (.ok off, { after with offset := file.offset + off })

def control (op : String) (turns : List Turn) (done : Step Unit) : Step Unit :=
  match turns with
  | [] => none
  | turn :: _ =>
      match turn.reply with
      | .moved _ => done
      | .failed errno => refuse file (make_io_error strerror op errno file.display_path)
      | .interrupted => refuse file (make_io_error strerror op 4 file.display_path)

def truncate (size : Nat) (turns : List Turn) : Step Unit :=
  checked file file.ensure_open fun _ =>
    if !offset_ok size then refuse file (from_domain "truncate size out of range" "truncate" 0)
    else file.control strerror "truncate" turns (some (.ok (), { file with content := padded 0 file.content size }))

def flush (turns : List Turn) : Step Unit :=
  checked file file.ensure_open fun _ => file.control strerror "flush" turns (some (.ok (), file))

-- Closing the handles gives the asynchronous backend up.
def close : Step Unit := some (.ok (), if file.closed then file else { file with closed := true, use_asio := false })

def async_read_at (offset max_bytes : Nat) (stopped : Bool) (turns : List Turn) : Step Bytes :=
  if file.closed then refuse file (file_closed "readAt")
  else
    checked file (resolve_read_max max_bytes) fun max_bytes =>
      if max_bytes = 0 then some (.ok [], file)
      else
        checked file (check_range offset max_bytes "readAt") fun _ =>
          if stopped then refuse file (asio_cancelled "readAt")
          else file.left (async_pread_all message file offset max_bytes turns []) fun buf => some (.ok buf, file)

def async_write_at (offset : Nat) (data : Bytes) (stopped : Bool) (turns : List Turn) : Step Nat :=
  if file.closed then refuse file (file_closed "writeAt")
  else if file.is_append_mode then refuse file append_refused
  else if data = [] then some (.ok 0, file)
  else
    checked file (check_range offset data.length "writeAt") fun _ =>
      if stopped then refuse file (asio_cancelled "writeAt")
      else file.wrote (async_pwrite_all message offset data turns 0 file.content) fun off after _ => some (.ok off, after)

end File

-- Work that a worker does, or finds cancelled, and whose answer is dropped where it is cancelled meanwhile.
def run_blocking {α : Type} (stops : Stops) (file : File) (work : Step α) : Step α :=
  if stops.worker then refuse file cancelled
  else
    match work with
    | none => none
    | some (result, after) => some (if stops.done then .error cancelled else result, after)

-- The answer is given where the cursor can follow it.
def advancing {α : Type} (moved : α → Nat) (result : Step α) : Step α :=
  match result with
  | some (.ok value, after) =>
      match after.advance_cursor (moved value) with
      | .ok last => some (.ok value, last)
      | .error error => refuse after error
  | other => other

inductive FileOp where
  | read (max_bytes : Option Nat)
  | readAt (offset max_bytes : Nat)
  | write (data : Bytes)
  | writeAt (offset : Nat) (data : Bytes)
  | truncate (size : Nat)
  | flush
  | close

inductive Answer where
  | bytes (data : Bytes)
  | count (written : Nat)
  | done
deriving DecidableEq, Repr

def answering {α : Type} (answer : α → Answer) (result : Step α) : Step Answer :=
  result.map fun step => (step.1.map answer, step.2)

def handle_append_refused : Error :=
  ⟨.native_failure, "writeAt is not supported on append handles; use write() (kernel-atomic O_APPEND)", "", 0⟩

-- The methods of a file handle, once the lease of the handle is held.
def File.perform (file : File) (op : FileOp) (stops : Stops) (turns : List Turn) : Step Answer :=
  match op with
  | .read max_bytes =>
      if stops.entry then refuse file (cancelled_op "read")
      else
        checked file (resolve_read_max (max_bytes.getD SIZE_MAX)) fun lim =>
          answering .bytes
            (if file.use_asio then advancing List.length (file.async_read_at message file.offset lim stops.worker turns)
            else run_blocking stops file (file.read strerror lim turns))
  | .readAt offset max_bytes =>
      if stops.entry then refuse file (cancelled_op "readAt")
      else
        checked file (resolve_read_max max_bytes) fun lim =>
          answering .bytes
            (if file.use_asio then file.async_read_at message offset lim stops.worker turns
            else run_blocking stops file (file.read_at strerror offset lim turns))
  | .write data =>
      if stops.entry then refuse file (cancelled_op "write")
      else
        answering .count
          (if file.is_append_mode then run_blocking stops file (file.append_write strerror data turns)
          else if file.use_asio then advancing id (file.async_write_at message file.offset data stops.worker turns)
          else run_blocking stops file (file.write strerror data turns))
  | .writeAt offset data =>
      if stops.entry then refuse file (cancelled_op "writeAt")
      else if file.is_append_mode then refuse file handle_append_refused
      else
        answering .count
          (if file.use_asio then file.async_write_at message offset data stops.worker turns
          else run_blocking stops file (file.write_at strerror offset data turns))
  | .truncate size =>
      if stops.entry then refuse file (cancelled_op "truncate")
      else answering (fun _ => .done) (run_blocking stops file (file.truncate strerror size turns))
  | .flush =>
      if stops.entry then refuse file (cancelled_op "flush")
      else answering (fun _ => .done) (run_blocking stops file (file.flush strerror turns))
  | .close =>
      if stops.entry then refuse file (cancelled_op "close")
      else answering (fun _ => .done) (if file.use_asio then file.close else run_blocking stops file file.close)

end file

end Vacps.Native.Fs
