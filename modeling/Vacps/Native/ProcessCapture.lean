import Mathlib.Data.List.Infix
import Vacps.Library.Runs
import Vacps.Native.Budget

/- vacps-native/src/process/process.cpp: what a process keeps of the bytes it drains from its two pipes. -/
set_option autoImplicit false

namespace Vacps.Native

open Library

inductive ProcessStream where
  | stdout
  | stderr
deriving DecidableEq, Repr

structure ChunkRef where
  sequence : Nat
  stream : ProcessStream
  stream_offset : Nat
  size : Nat
  observed_at_ms : Int

-- What append_capture is given of one stream.
structure Capture where
  acc : List UInt8
  max_bytes : Nat
  truncated : Bool
  produced : Nat

structure ProcessState where
  budget : Option ProcessBudget
  captures : ProcessStream → Capture
  chunks : List ChunkRef
  next_sequence : Nat

def captureRoom (capture : Capture) (budget : Option ProcessBudget) (n : Nat) : Nat :=
  min (if capture.acc.length < capture.max_bytes then capture.max_bytes - capture.acc.length else 0)
    (match budget with
      | some budget => budget.global_buffer_room
      | none => n)

def append_capture (state : ProcessState) (stream : ProcessStream) (data : List UInt8) (observed_at_ms : Int) : ProcessState :=
  let capture := state.captures stream
  let n := data.length
  let room := captureRoom capture state.budget n
  let take := min n room
  let kept : Capture :=
    { acc := if 0 < room then capture.acc ++ data.take take else capture.acc
      max_bytes := capture.max_bytes
      truncated := if room < n then true else capture.truncated
      produced := (capture.produced + n) % sizeBound }
  let captures := fun other => if other = stream then kept else state.captures other
  if 0 < room then
    { budget := state.budget.map fun budget => budget.add_buffered take
      captures := captures
      chunks := state.chunks ++ [⟨state.next_sequence, stream, capture.acc.length, take, observed_at_ms⟩]
      next_sequence := state.next_sequence + 1 }
  else { state with captures := captures }

-- while (end > 0 && end < value.size() && the byte at end continues a character) --end
def utf8Backed (value : List UInt8) : Nat → Nat
  | 0 => 0
  | stop + 1 =>
      match value[stop + 1]? with
      | some byte => if byte &&& 0xc0 = 0x80 then utf8Backed value stop else stop + 1
      | none => stop + 1

def utf8_prefix_size (value : List UInt8) (max_bytes : Nat) : Nat := utf8Backed value (min value.length max_bytes)

structure StreamSnapshot where
  str : List UInt8
  bytes : Nat
  truncated : Bool

-- The three fields of ProcessSnapshot about one stream.
def snapshot (state : ProcessState) (stream : ProcessStream) (preview_bytes : Nat) : StreamSnapshot :=
  let capture := state.captures stream
  { str := capture.acc.take (utf8_prefix_size capture.acc preview_bytes)
    bytes := capture.produced
    truncated := capture.truncated || decide (preview_bytes < capture.acc.length) }

-- A chunk arrives, or others charge or release bytes of the budget.
inductive CaptureEvent where
  | chunk (stream : ProcessStream) (data : List UInt8) (observed_at_ms : Int)
  | charge (n : Nat)
  | release (n : Nat)

-- The process's own state, and all the bytes it has written.
structure CaptureRun where
  state : ProcessState
  produced : ProcessStream → List UInt8

def CaptureRun.next (run : CaptureRun) : CaptureEvent → CaptureRun
  | .chunk stream data observed_at_ms =>
      { state := append_capture run.state stream data observed_at_ms
        produced := fun other => if other = stream then run.produced stream ++ data else run.produced other }
  | .charge n => { run with state := { run.state with budget := run.state.budget.map fun budget => budget.add_buffered n } }
  | .release n => { run with state := { run.state with budget := run.state.budget.map fun budget => budget.sub_buffered n } }

def fresh (budget : Option ProcessBudget) (max_out max_err : Nat) : CaptureRun where
  state :=
    { budget := budget
      captures := fun stream => ⟨[], if stream = .stdout then max_out else max_err, false, 0⟩
      chunks := []
      next_sequence := 1 }
  produced _ := []

-- A chunk of a stream that has been cut finds no room.
def staysCut (run : CaptureRun) (event : CaptureEvent) : Prop :=
  ∀ stream data observed_at_ms, event = .chunk stream data observed_at_ms → (run.state.captures stream).truncated = true →
    data = [] ∨ captureRoom (run.state.captures stream) run.state.budget data.length = 0

-- What is kept is the front of what came, and the stream is marked just in case that is not all.
structure Faithful (capture : Capture) (produced : List UInt8) : Prop where
  front : capture.acc <+: produced
  marked : capture.truncated = true ↔ capture.acc.length < produced.length

theorem faithful_uncut (capture : Capture) (produced : List UInt8) (faithful : Faithful capture produced)
    (uncut : capture.truncated = false) : capture.acc = produced := by
  refine faithful.front.eq_of_length_le ?_
  by_contra shorter
  rw [faithful.marked.mpr (Nat.lt_of_not_le shorter)] at uncut
  cases uncut

theorem append_capture_here (state : ProcessState) (stream : ProcessStream) (data : List UInt8) (observed_at_ms : Int) :
    (append_capture state stream data observed_at_ms).captures stream =
      { acc := (state.captures stream).acc ++ data.take (captureRoom (state.captures stream) state.budget data.length)
        max_bytes := (state.captures stream).max_bytes
        truncated := if captureRoom (state.captures stream) state.budget data.length < data.length then true
          else (state.captures stream).truncated
        produced := ((state.captures stream).produced + data.length) % sizeBound } := by
  have taken : ∀ room, data.take (min data.length room) = data.take room := by
    intro room
    rw [Nat.min_comm]
    exact List.take_eq_take_min.symm
  unfold append_capture
  dsimp only
  split
  · dsimp only
    rw [if_pos rfl, taken]
  · rename_i none_left
    dsimp only
    rw [if_pos rfl, Nat.eq_zero_of_not_pos none_left, List.take_zero, List.append_nil]

theorem append_capture_other (state : ProcessState) (stream other : ProcessStream) (data : List UInt8) (observed_at_ms : Int)
    (different : other ≠ stream) :
    (append_capture state stream data observed_at_ms).captures other = state.captures other := by
  unfold append_capture
  dsimp only
  split <;> exact if_neg different

theorem faithful_chunk (state : ProcessState) (stream : ProcessStream) (data produced : List UInt8) (observed_at_ms : Int)
    (faithful : Faithful (state.captures stream) produced)
    (cut : (state.captures stream).truncated = true →
      data = [] ∨ captureRoom (state.captures stream) state.budget data.length = 0) :
    Faithful ((append_capture state stream data observed_at_ms).captures stream) (produced ++ data) := by
  rw [append_capture_here]
  generalize captureRoom (state.captures stream) state.budget data.length = room at cut ⊢
  cases before : (state.captures stream).truncated with
  | false =>
      have whole := faithful_uncut _ _ faithful before
      refine ⟨?_, ?_⟩
      · rw [whole]
        exact (List.prefix_append_right_inj produced).mpr (List.take_prefix room data)
      · rw [whole, List.length_append, List.length_append, List.length_take]
        split
        · simp only [true_iff]
          omega
        · simp only [Bool.false_eq_true, false_iff]
          omega
  | true =>
      have shorter := faithful.marked.mp before
      have untaken : data.take room = [] := by
        rcases cut before with nothing | full
        · rw [nothing, List.take_nil]
        · rw [full, List.take_zero]
      refine ⟨?_, ?_⟩
      · rw [untaken, List.append_nil]
        exact faithful.front.trans (List.prefix_append produced data)
      · rw [untaken, List.append_nil, List.length_append, ite_self]
        simp only [true_iff]
        omega

theorem faithful_next (run : CaptureRun) (event : CaptureEvent) (stream : ProcessStream)
    (faithful : Faithful (run.state.captures stream) (run.produced stream)) (cut : staysCut run event) :
    Faithful ((run.next event).state.captures stream) ((run.next event).produced stream) := by
  cases event with
  | chunk arrived data observed_at_ms =>
      by_cases same : stream = arrived
      · subst same
        simp only [CaptureRun.next, if_true]
        exact faithful_chunk run.state stream data (run.produced stream) observed_at_ms faithful
          (cut stream data observed_at_ms rfl)
      · simp only [CaptureRun.next, if_neg same]
        rw [append_capture_other run.state arrived stream data observed_at_ms same]
        exact faithful
  | charge n => exact faithful
  | release n => exact faithful

theorem run_faithful (budget : Option ProcessBudget) (max_out max_err : Nat) (events : List CaptureEvent)
    (along : Along CaptureRun.next staysCut (fresh budget max_out max_err) events) (stream : ProcessStream) :
    Faithful ((runFrom CaptureRun.next (fresh budget max_out max_err) events).state.captures stream)
      ((runFrom CaptureRun.next (fresh budget max_out max_err) events).produced stream) := by
  refine along_keeps CaptureRun.next staysCut (fun run => Faithful (run.state.captures stream) (run.produced stream)) ?_ _ events ?_ along
  · intro run event faithful cut
    exact faithful_next run event stream faithful cut
  · exact ⟨List.prefix_rfl, by simp [fresh]⟩

theorem backed_le (value : List UInt8) (stop : Nat) : utf8Backed value stop ≤ stop := by
  induction stop with
  | zero => exact Nat.le_refl 0
  | succ stop ih =>
      rw [utf8Backed]
      split
      · split
        · exact Nat.le_succ_of_le ih
        · exact Nat.le_refl _
      · exact Nat.le_refl _

theorem prefix_size_all (value : List UInt8) (max_bytes : Nat) (fits : value.length ≤ max_bytes) :
    utf8_prefix_size value max_bytes = value.length := by
  rw [utf8_prefix_size, Nat.min_eq_left fits]
  cases size : value.length with
  | zero => rfl
  | succ stop => rw [utf8Backed, List.getElem?_eq_none (Nat.le_of_eq size)]

-- A preview of a faithful capture is faithful.
theorem snapshot_faithful (state : ProcessState) (stream : ProcessStream) (produced : List UInt8) (preview_bytes : Nat)
    (faithful : Faithful (state.captures stream) produced) :
    (snapshot state stream preview_bytes).str <+: produced ∧
      ((snapshot state stream preview_bytes).truncated = true ↔
        (snapshot state stream preview_bytes).str.length < produced.length) := by
  have bound := faithful.front.length_le
  refine ⟨(List.take_prefix _ _).trans faithful.front, ?_⟩
  rw [snapshot, Bool.or_eq_true, decide_eq_true_eq, faithful.marked, List.length_take]
  by_cases fits : (state.captures stream).acc.length ≤ preview_bytes
  · rw [prefix_size_all _ _ fits, Nat.min_self]
    omega
  · have short : utf8_prefix_size (state.captures stream).acc preview_bytes ≤ preview_bytes :=
      (backed_le _ _).trans (Nat.min_le_right _ _)
    omega

-- While no chunk of a cut stream finds room again, what a process keeps of a stream is the front of what the
-- process wrote, marked as cut just in case that is not all; so is every preview of it.
theorem capture_prefix (budget : Option ProcessBudget) (max_out max_err : Nat) (events : List CaptureEvent)
    (along : Along CaptureRun.next staysCut (fresh budget max_out max_err) events) (stream : ProcessStream) (preview_bytes : Nat) :
    let run := runFrom CaptureRun.next (fresh budget max_out max_err) events
    let shown := snapshot run.state stream preview_bytes
    (run.state.captures stream).acc <+: run.produced stream ∧
      ((run.state.captures stream).truncated = true ↔ (run.state.captures stream).acc.length < (run.produced stream).length) ∧
      shown.str <+: run.produced stream ∧ (shown.truncated = true ↔ shown.str.length < (run.produced stream).length) := by
  intro run shown
  have faithful := run_faithful budget max_out max_err events along stream
  exact ⟨faithful.front, faithful.marked, snapshot_faithful run.state stream (run.produced stream) preview_bytes faithful⟩

def staysCutNow (run : CaptureRun) : CaptureEvent → Bool
  | .chunk stream data _ =>
      !(run.state.captures stream).truncated || data.isEmpty ||
        captureRoom (run.state.captures stream) run.state.budget data.length == 0
  | _ => true

theorem stays_cut_now (run : CaptureRun) (event : CaptureEvent) (now : staysCutNow run event = true) : staysCut run event := by
  rintro stream data observed_at_ms rfl cut
  simpa [staysCutNow, cut] using now

-- Four bytes of room for all: the third chunk is cut, and the budget stays used up.
theorem capture_prefix_cut :
    let run := runFrom CaptureRun.next (fresh (some ⟨4, 0⟩) 16 16)
      [.charge 1, .chunk .stdout [97] 0, .chunk .stdout [98, 99, 100] 0, .chunk .stdout [101] 0]
    let shown := snapshot run.state .stdout 2
    (run.state.captures .stdout).acc = [97, 98, 99] ∧ (run.state.captures .stdout).acc <+: run.produced .stdout ∧
      ((run.state.captures .stdout).truncated = true ↔
        (run.state.captures .stdout).acc.length < (run.produced .stdout).length) ∧
      shown.str <+: run.produced .stdout ∧ (shown.truncated = true ↔ shown.str.length < (run.produced .stdout).length) := by
  intro run shown
  refine ⟨by decide, ?_⟩
  refine capture_prefix (some ⟨4, 0⟩) 16 16 _ ?_ .stdout 2
  exact along_mono _ _ _ stays_cut_now _ _ (by decide)

-- The budget is used up while b comes, and given back before c comes: what is kept is no front of what came.
theorem capture_has_hole :
    let run := runFrom CaptureRun.next (fresh (some ⟨2, 0⟩) 16 16)
      [.charge 1, .chunk .stdout [97] 0, .chunk .stdout [98] 0, .release 1, .chunk .stdout [99] 0]
    run.produced .stdout = [97, 98, 99] ∧ (run.state.captures .stdout).acc = [97, 99] ∧
      ¬ (run.state.captures .stdout).acc <+: run.produced .stdout := by
  decide

end Vacps.Native
