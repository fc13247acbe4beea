import Vacps.Library.Runs

/- vacps-native/src/http/server.cpp: the phase of a server and the count of its children, through listen, accept,
   close and dispose. All of it runs on one executor; what a session does with its requests is left out, and so
   are the cancellation flags it looks at: a session may end at any time. -/
set_option autoImplicit false

namespace Vacps.Native.Http

open Library

inductive Phase where
  | Created
  | Listening
  | Closing
  | Closed
deriving DecidableEq, Repr

structure ListenAddress where
  host : String
  port : Nat
deriving DecidableEq, Repr

def noAddress : ListenAddress := ⟨"", 0⟩

-- An assignment to the phase, with the number of children it was made at.
structure PhaseChange where
  before : Phase
  after : Phase
  children : Nat
deriving DecidableEq, Repr

-- Server::State. A gate is a timer that never expires, numbered as it is made; acceptor has whether it is open.
structure State where
  phase : Phase
  acceptor : Option Bool
  bound : ListenAddress
  stop_requested : Bool
  child_count : Nat
  drain_waiters : List Nat
  close_waiters : List Nat
  accept_loop_running : Bool
  gates : Nat
  cancelled : List Nat
  changes : List PhaseChange
deriving DecidableEq, Repr

def State.assign (state : State) (phase : Phase) : State :=
  { state with phase := phase, changes := state.changes ++ [⟨state.phase, phase, state.child_count⟩] }

def State.wake_drain_waiters (state : State) : State :=
  { state with drain_waiters := [], cancelled := state.cancelled ++ state.drain_waiters }

def State.wake_close_waiters (state : State) : State :=
  { state with close_waiters := [], cancelled := state.cancelled ++ state.close_waiters }

def State.try_finalize_close (state : State) : State :=
  if state.phase ≠ .Closing then state
  else if state.child_count ≠ 0 then state
  else (({ state with acceptor := none, bound := noAddress }.assign .Closed).wake_drain_waiters).wake_close_waiters

def State.child_inc (state : State) : State := { state with child_count := state.child_count + 1 }

def State.child_dec (state : State) : State :=
  if state.child_count = 0 then state
  else
    let fewer := { state with child_count := state.child_count - 1 }
    if fewer.child_count = 0 then fewer.wake_drain_waiters.try_finalize_close else fewer

def State.request_shutdown (state : State) : State :=
  { state with stop_requested := true, acceptor := state.acceptor.map fun _ => false }

def State.begin_close (state : State) : State :=
  match state.phase with
  | .Closed => state
  | .Created => (state.assign .Closed).wake_close_waiters
  | .Listening => (state.assign .Closing).request_shutdown.try_finalize_close
  | .Closing => state.request_shutdown.try_finalize_close

-- Everything up to the commit may refuse; after it only the start of the accept loop may fail.
inductive ListenOutcome where
  | refused
  | spawn_failed (bound : ListenAddress)
  | listening (bound : ListenAddress)

def State.commit (state : State) (bound : ListenAddress) : State :=
  { { state with bound := bound, acceptor := some true }.assign .Listening with accept_loop_running := true }.child_inc

def State.rollback (state : State) : State :=
  ({ state with accept_loop_running := false, acceptor := none, bound := noAddress }.assign .Created).child_dec

def State.async_listen (state : State) (outcome : ListenOutcome) : State :=
  if state.phase ≠ .Created then state
  else
    match outcome with
    | .refused => state
    | .spawn_failed bound => (state.commit bound).rollback
    | .listening bound => state.commit bound

-- Where a call of close_impl stands: at a gate of wait_children_drained or of wait_close_complete, or at its end.
inductive CloseCall where
  | draining (gate : Nat)
  | completing (gate : Nat)
  | done
deriving DecidableEq, Repr

def State.drainGate (state : State) : State × CloseCall :=
  ({ state with gates := state.gates + 1, drain_waiters := state.drain_waiters ++ [state.gates] }, .draining state.gates)

def State.closeGate (state : State) : State × CloseCall :=
  ({ state with gates := state.gates + 1, close_waiters := state.close_waiters ++ [state.gates] }, .completing state.gates)

def State.wait_close_complete (state : State) : State × CloseCall :=
  if state.phase ≠ .Closed then state.closeGate else (state, .done)

-- The rest of the loop of close_impl, after wait_children_drained or in its place.
def State.drained (state : State) : State × CloseCall := state.try_finalize_close.wait_close_complete

def State.join (state : State) : State × CloseCall :=
  if state.phase = .Closed then (state, .done)
  else if 0 < state.child_count then state.drainGate
  else state.drained

def State.close_impl (state : State) : State × CloseCall :=
  if state.phase = .Closed then (state, .done) else state.begin_close.join

-- The gate's wait ends, for whatever reason.
def State.resume (state : State) : CloseCall → State × CloseCall
  | .draining _ => if 0 < state.child_count then state.drainGate else state.drained
  | .completing _ => state.wait_close_complete
  | .done => (state, .done)

inductive AcceptLoop where
  | starting
  | accepting
deriving DecidableEq, Repr

-- The server with its children and the calls made on it.
structure Run where
  state : State
  accept_loop : Option AcceptLoop
  sessions : List Nat
  accepted : Nat
  closes : List CloseCall
  disposals : Nat
deriving DecidableEq, Repr

-- ~Dec. The loop is never left with the server listening.
def Run.leave (run : Run) : Run :=
  let stopped := { run.state with accept_loop_running := false }
  let closed := if stopped.phase = .Listening then stopped.begin_close else stopped
  { run with state := closed.child_dec, accept_loop := none }

def Run.loop (run : Run) : Run :=
  if run.state.phase = .Listening ∧ run.state.acceptor = some true then { run with accept_loop := some .accepting }
  else run.leave

inductive AcceptOutcome where
  | error (aborted : Bool)
  | session (spawned : Bool)
  -- Something throws before the session is counted.
  | thrown

def Run.accept (run : Run) : AcceptOutcome → Run
  | .error aborted =>
      if run.state.phase ≠ .Listening ∨ aborted = true ∨ run.state.stop_requested = true then run.leave
      else { run with state := run.state.begin_close }.leave
  | .session spawned =>
      if run.state.phase ≠ .Listening then run.leave
      else
        let counted := { run with state := run.state.child_inc, accepted := run.accepted + 1 }
        if spawned then { counted with sessions := counted.sessions ++ [run.accepted] }.loop
        else { counted with state := counted.state.child_dec }.loop
  | .thrown => if run.state.phase = .Listening then { run with state := run.state.begin_close }.leave else run.leave

inductive Event where
  | async_listen (outcome : ListenOutcome)
  | starts
  | accepts (outcome : AcceptOutcome)
  | session_ends (session : Nat)
  | async_close
  | resumes (call : Nat)
  | dispose
  -- What dispose has posted runs.
  | disposes

def Run.next (run : Run) : Event → Run
  | .async_listen outcome =>
      let state := run.state.async_listen outcome
      { run with
        state := state
        accept_loop := if run.state.phase ≠ .Listening ∧ state.phase = .Listening then some .starting else run.accept_loop }
  | .starts => if run.accept_loop = some .starting then run.loop else run
  | .accepts outcome => if run.accept_loop = some .accepting then run.accept outcome else run
  | .session_ends session =>
      if session ∈ run.sessions then { run with state := run.state.child_dec, sessions := run.sessions.erase session } else run
  | .async_close => { run with state := run.state.close_impl.1, closes := run.closes ++ [run.state.close_impl.2] }
  | .resumes call =>
      match run.closes[call]? with
      | some waits => { run with state := (run.state.resume waits).1, closes := run.closes.set call (run.state.resume waits).2 }
      | none => run
  | .dispose => { run with disposals := run.disposals + 1 }
  | .disposes =>
      if run.disposals = 0 then run
      else
        { run with
          disposals := run.disposals - 1
          state := if run.state.phase = .Closed then run.state else run.state.begin_close }

def newServer : Run := ⟨⟨.Created, none, noAddress, false, 0, [], [], false, 0, [], []⟩, none, [], 0, [], 0⟩

section steps

def Phase.rank : Phase → Nat
  | .Created => 0
  | .Listening => 1
  | .Closing => 2
  | .Closed => 3

-- Closed comes from Created, or from Closing when no child is left.
def PhaseChange.Forward (change : PhaseChange) : Prop :=
  match change.before, change.after with
  | .Created, .Listening => True
  | .Created, .Closed => True
  | .Listening, .Closing => True
  | .Closing, .Closed => change.children = 0
  | _, _ => False

-- A gate that somebody will cancel, or has cancelled.
def State.Known (state : State) (gate : Nat) : Prop :=
  gate ∈ state.cancelled ∨ gate ∈ state.drain_waiters ∨ gate ∈ state.close_waiters

-- What every function of the server does to it, but for the rollback of a listen that failed.
structure Steps (before after : State) : Prop where
  forward : before.phase.rank ≤ after.phase.rank
  changes : ∃ made, after.changes = before.changes ++ made ∧ ∀ change ∈ made, change.Forward
  gates : ∀ gate, before.Known gate → after.Known gate

theorem steps_refl (state : State) : Steps state state :=
  ⟨Nat.le_refl _, ⟨[], by simp, by simp⟩, fun _ known => known⟩

theorem steps_trans (first middle last : State) (earlier : Steps first middle) (later : Steps middle last) : Steps first last := by
  obtain ⟨made, same, forward⟩ := earlier.changes
  obtain ⟨more, extended, further⟩ := later.changes
  refine ⟨Nat.le_trans earlier.forward later.forward, ⟨made ++ more, by rw [extended, same, List.append_assoc], ?_⟩,
    fun gate known => later.gates gate (earlier.gates gate known)⟩
  intro change member
  rcases List.mem_append.mp member with old | new
  · exact forward change old
  · exact further change new

-- A step that makes no assignment to the phase, and forgets no gate.
theorem steps_within (before after : State) (phase : after.phase = before.phase) (changes : after.changes = before.changes)
    (gates : ∀ gate, before.Known gate → after.Known gate) : Steps before after :=
  ⟨Nat.le_of_eq (by rw [phase]), ⟨[], by rw [changes, List.append_nil], by simp⟩, gates⟩

theorem assign_steps (state : State) (phase : Phase) (forward : PhaseChange.Forward ⟨state.phase, phase, state.child_count⟩)
    (higher : state.phase.rank ≤ phase.rank) : Steps state (state.assign phase) :=
  ⟨higher, ⟨[⟨state.phase, phase, state.child_count⟩], rfl, by simpa using forward⟩, fun _ known => known⟩

theorem wake_drain_steps (state : State) : Steps state state.wake_drain_waiters := by
  refine steps_within state _ rfl rfl fun gate known => ?_
  simp only [State.Known, State.wake_drain_waiters, List.mem_append, List.not_mem_nil, false_or] at known ⊢
  grind

theorem wake_close_steps (state : State) : Steps state state.wake_close_waiters := by
  refine steps_within state _ rfl rfl fun gate known => ?_
  simp only [State.Known, State.wake_close_waiters, List.mem_append, List.not_mem_nil, or_false] at known ⊢
  grind

theorem finalize_steps (state : State) : Steps state state.try_finalize_close := by
  unfold State.try_finalize_close
  split
  · exact steps_refl state
  · rename_i closing
    split
    · exact steps_refl state
    · rename_i empty
      rw [not_not] at closing empty
      refine steps_trans _ _ _ ?_ (wake_close_steps _)
      refine steps_trans _ _ _ ?_ (wake_drain_steps _)
      refine steps_trans _ { state with acceptor := none, bound := noAddress } _ (steps_within _ _ rfl rfl fun _ known => known) ?_
      refine assign_steps _ .Closed ?_ ?_
      · change PhaseChange.Forward ⟨state.phase, .Closed, state.child_count⟩
        rw [closing]
        exact empty
      · change state.phase.rank ≤ _
        rw [closing]
        decide

theorem child_dec_steps (state : State) : Steps state state.child_dec := by
  unfold State.child_dec
  have fewer : Steps state { state with child_count := state.child_count - 1 } :=
    steps_within _ _ rfl rfl fun _ known => known
  split
  · exact steps_refl state
  · dsimp only
    split
    · exact steps_trans _ _ _ fewer (steps_trans _ _ _ (wake_drain_steps _) (finalize_steps _))
    · exact fewer

theorem shutdown_steps (state : State) : Steps state state.request_shutdown :=
  steps_within state _ rfl rfl fun _ known => known

theorem begin_close_steps (state : State) : Steps state state.begin_close := by
  unfold State.begin_close
  cases phase : state.phase with
  | Closed => exact steps_refl state
  | Created =>
      refine steps_trans _ _ _ (assign_steps state .Closed ?_ ?_) (wake_close_steps _)
      · rw [phase]
        exact trivial
      · rw [phase]
        decide
  | Listening =>
      refine steps_trans _ _ _ (assign_steps state .Closing ?_ ?_) (steps_trans _ _ _ (shutdown_steps _) (finalize_steps _))
      · rw [phase]
        exact trivial
      · rw [phase]
        decide
  | Closing => exact steps_trans _ _ _ (shutdown_steps state) (finalize_steps _)

theorem commit_steps (state : State) (bound : ListenAddress) (created : state.phase = .Created) :
    Steps state (state.commit bound) := by
  refine steps_trans _ ({ state with bound := bound, acceptor := some true }.assign .Listening) _ ?_
    (steps_within _ _ rfl rfl fun _ known => known)
  refine steps_trans _ { state with bound := bound, acceptor := some true } _ (steps_within _ _ rfl rfl fun _ known => known) ?_
  refine assign_steps _ .Listening ?_ ?_
  · change PhaseChange.Forward ⟨state.phase, _, _⟩
    rw [created]
    exact trivial
  · change state.phase.rank ≤ _
    rw [created]
    decide

theorem drain_gate_steps (state : State) : Steps state state.drainGate.1 := by
  refine steps_within state _ rfl rfl fun gate known => ?_
  simp only [State.Known, State.drainGate, List.mem_append] at known ⊢
  grind

theorem close_gate_steps (state : State) : Steps state state.closeGate.1 := by
  refine steps_within state _ rfl rfl fun gate known => ?_
  simp only [State.Known, State.closeGate, List.mem_append] at known ⊢
  grind

theorem wait_steps (state : State) : Steps state state.wait_close_complete.1 := by
  unfold State.wait_close_complete
  split
  · exact close_gate_steps state
  · exact steps_refl state

theorem drained_steps (state : State) : Steps state state.drained.1 :=
  steps_trans _ _ _ (finalize_steps state) (wait_steps _)

theorem join_steps (state : State) : Steps state state.join.1 := by
  unfold State.join
  split
  · exact steps_refl state
  · split
    · exact drain_gate_steps state
    · exact drained_steps state

theorem close_impl_steps (state : State) : Steps state state.close_impl.1 := by
  unfold State.close_impl
  split
  · exact steps_refl state
  · exact steps_trans _ _ _ (begin_close_steps state) (join_steps _)

theorem resume_steps (state : State) (call : CloseCall) : Steps state (state.resume call).1 := by
  cases call with
  | draining gate =>
      simp only [State.resume]
      split
      · exact drain_gate_steps state
      · exact drained_steps state
  | completing gate => exact wait_steps state
  | done => exact steps_refl state

end steps

section sound

def CloseCall.gate : CloseCall → Option Nat
  | .draining gate => some gate
  | .completing gate => some gate
  | .done => none

-- The state of a server with so many children, but for a close that is about to be finalized.
structure Core (state : State) (children : Nat) : Prop where
  count : state.child_count = children
  created : state.phase = .Created → children = 0
  early : state.phase.rank < Phase.rank .Closing → state.drain_waiters = []
  closed : state.phase = .Closed → children = 0 ∧ state.drain_waiters = [] ∧ state.close_waiters = []
  once : (state.changes.filter (·.after = .Closed)).length = if state.phase = .Closed then 1 else 0

structure Sound (state : State) (children : Nat) : Prop extends Core state children where
  closing : state.phase = .Closing → children ≠ 0

theorem finalize_sound (state : State) (children : Nat) (core : Core state children) :
    Sound state.try_finalize_close children := by
  unfold State.try_finalize_close
  split
  · rename_i other
    exact ⟨core, fun closing => absurd closing other⟩
  · rename_i closing
    rw [not_not] at closing
    split
    · rename_i some_
      rw [core.count] at some_
      exact ⟨core, fun _ => some_⟩
    · rename_i empty
      rw [not_not, core.count] at empty
      have once := core.once
      rw [closing, if_neg (by decide)] at once
      refine ⟨⟨core.count, (fun created => nomatch created), ?_, fun _ => ⟨empty, rfl, rfl⟩, ?_⟩, (fun closing => nomatch closing)⟩
      · intro early
        rfl
      · simp [State.wake_close_waiters, State.wake_drain_waiters, State.assign, List.filter_append, once]

theorem child_dec_sound (state : State) (children : Nat) (sound : Sound state (children + 1)) : Sound state.child_dec children := by
  have some_ : state.child_count = children + 1 := sound.count
  have fewer : Core { state with child_count := state.child_count - 1 } children := by
    refine ⟨?_, ?_, sound.early, ?_, sound.once⟩
    · simp [some_]
    · intro created
      exact absurd (sound.created created) (by omega)
    · intro closed
      exact absurd (sound.closed closed).1 (by omega)
  unfold State.child_dec
  rw [if_neg (by omega)]
  dsimp only
  split
  · exact finalize_sound _ _ ⟨fewer.count, fewer.created, fun _ => rfl, fun closed => ⟨(fewer.closed closed).1, rfl, (fewer.closed closed).2.2⟩,
      fewer.once⟩
  · rename_i left
    have count := fewer.count
    exact ⟨fewer, fun _ none_ => left (count.trans none_)⟩

theorem begin_close_sound (state : State) (children : Nat) (sound : Sound state children)
    (listening : state.phase = .Listening → children ≠ 0) :
    Sound state.begin_close children ∧ Phase.rank .Closing ≤ state.begin_close.phase.rank := by
  unfold State.begin_close
  have once := sound.once
  cases phase : state.phase with
  | Closed => exact ⟨sound, by rw [phase]; decide⟩
  | Created =>
      have empty := sound.created phase
      have drained := sound.early (by rw [phase]; decide)
      rw [phase, if_neg (by decide)] at once
      refine ⟨⟨⟨sound.count, (fun created => nomatch created), fun _ => drained, fun _ => ⟨empty, drained, rfl⟩, ?_⟩,
        (fun closing => nomatch closing)⟩, Nat.le_succ 2⟩
      simp [State.wake_close_waiters, State.assign, List.filter_append, once]
  | Listening =>
      have some_ := listening phase
      rw [phase, if_neg (by decide)] at once
      have core : Core (state.assign .Closing).request_shutdown children := by
        refine ⟨sound.count, (fun created => nomatch created), (fun early => absurd early (Nat.lt_irrefl 2)), (fun closed => nomatch closed), ?_⟩
        simp [State.request_shutdown, State.assign, List.filter_append, once]
      exact ⟨finalize_sound _ _ core, (finalize_steps (state.assign .Closing).request_shutdown).forward⟩
  | Closing =>
      have core : Core state.request_shutdown children := ⟨sound.count, sound.created, sound.early, sound.closed, sound.once⟩
      have forward := (finalize_steps state.request_shutdown).forward
      change state.phase.rank ≤ _ at forward
      rw [phase] at forward
      exact ⟨finalize_sound _ _ core, forward⟩

theorem listen_sound (state : State) (outcome : ListenOutcome) (sound : Sound state 0) (created : state.phase = .Created) :
    match outcome with
    | .listening _ => Sound (state.async_listen outcome) 1 ∧ (state.async_listen outcome).phase = .Listening
    | _ => Sound (state.async_listen outcome) 0 ∧ (state.async_listen outcome).phase = .Created := by
  have count : state.child_count = 0 := sound.count
  have drained := sound.early (by rw [created]; decide)
  have once := sound.once
  rw [created, if_neg (by decide)] at once
  unfold State.async_listen
  rw [if_neg (not_not_intro created)]
  cases outcome with
  | refused => exact ⟨sound, created⟩
  | listening bound =>
      refine ⟨⟨⟨?_, (fun other => nomatch other), fun _ => drained, (fun closed => nomatch closed), ?_⟩,
        (fun closing => nomatch closing)⟩, rfl⟩
      · simp [State.commit, State.child_inc, State.assign, count]
      · simp [State.commit, State.child_inc, State.assign, List.filter_append, once]
  | spawn_failed bound =>
      have ends : (state.commit bound).rollback.phase = .Created ∧ (state.commit bound).rollback.child_count = 0 ∧
          (state.commit bound).rollback.drain_waiters = [] ∧
          (state.commit bound).rollback.changes = state.changes ++ [⟨.Created, .Listening, 0⟩, ⟨.Listening, .Created, 1⟩] := by
        simp [State.rollback, State.commit, State.child_dec, State.child_inc, State.assign, State.wake_drain_waiters,
          State.try_finalize_close, count, created]
      obtain ⟨phase, none_, empty, changes⟩ := ends
      refine ⟨⟨⟨none_, fun _ => rfl, fun _ => empty, ?_, ?_⟩, ?_⟩, phase⟩
      · intro closed
        exact absurd (phase.symm.trans closed) (by decide)
      · simp [changes, phase, List.filter_append, once]
      · intro closing
        exact absurd (phase.symm.trans closing) (by decide)

-- A call of close_impl is over, or waits at a gate that somebody will cancel; it is over if the server is closed.
structure Waits (state : State) (call : CloseCall) : Prop where
  late : call ≠ .done → Phase.rank .Closing ≤ state.phase.rank
  known : ∀ gate, call.gate = some gate → state.Known gate

theorem done_waits (state : State) : Waits state .done := ⟨fun other => absurd rfl other, (fun _ none_ => nomatch none_)⟩

theorem waits_later (before after : State) (steps : Steps before after) (call : CloseCall) (waits : Waits before call) :
    Waits after call :=
  ⟨fun other => Nat.le_trans (waits.late other) steps.forward, fun gate here => steps.gates gate (waits.known gate here)⟩

theorem phase_late (phase : Phase) (late : Phase.rank .Closing ≤ phase.rank) : phase = .Closing ∨ phase = .Closed := by
  cases phase with
  | Created => exact absurd late (by decide)
  | Listening => exact absurd late (by decide)
  | Closing => exact Or.inl rfl
  | Closed => exact Or.inr rfl

theorem drain_gate_sound (state : State) (children : Nat) (sound : Sound state children) (closing : state.phase = .Closing) :
    Sound state.drainGate.1 children ∧ Waits state.drainGate.1 state.drainGate.2 := by
  refine ⟨⟨⟨sound.count, sound.created, ?_, ?_, sound.once⟩, sound.closing⟩, ⟨?_, ?_⟩⟩
  · intro early
    change state.phase.rank < _ at early
    rw [closing] at early
    exact absurd early (Nat.lt_irrefl 2)
  · intro closed
    exact nomatch closing.symm.trans closed
  · intro _
    exact Nat.le_of_eq (congrArg Phase.rank closing.symm)
  · intro gate here
    cases here
    exact Or.inr (Or.inl (by simp [State.drainGate]))

theorem close_gate_sound (state : State) (children : Nat) (sound : Sound state children) (closing : state.phase = .Closing) :
    Sound state.closeGate.1 children ∧ Waits state.closeGate.1 state.closeGate.2 := by
  refine ⟨⟨⟨sound.count, sound.created, sound.early, ?_, sound.once⟩, sound.closing⟩, ⟨?_, ?_⟩⟩
  · intro closed
    exact nomatch closing.symm.trans closed
  · intro _
    exact Nat.le_of_eq (congrArg Phase.rank closing.symm)
  · intro gate here
    cases here
    exact Or.inr (Or.inr (by simp [State.closeGate]))

theorem wait_sound (state : State) (children : Nat) (sound : Sound state children) (late : Phase.rank .Closing ≤ state.phase.rank) :
    Sound state.wait_close_complete.1 children ∧ Waits state.wait_close_complete.1 state.wait_close_complete.2 := by
  unfold State.wait_close_complete
  rcases phase_late state.phase late with closing | closed
  · rw [if_pos (by rw [closing]; decide)]
    exact close_gate_sound state children sound closing
  · rw [if_neg (not_not_intro closed)]
    exact ⟨sound, done_waits state⟩

theorem drained_sound (state : State) (children : Nat) (sound : Sound state children)
    (late : Phase.rank .Closing ≤ state.phase.rank) :
    Sound state.drained.1 children ∧ Waits state.drained.1 state.drained.2 :=
  wait_sound _ children (finalize_sound state children sound.toCore) (Nat.le_trans late (finalize_steps state).forward)

theorem join_sound (state : State) (children : Nat) (sound : Sound state children) (late : Phase.rank .Closing ≤ state.phase.rank) :
    Sound state.join.1 children ∧ Waits state.join.1 state.join.2 := by
  unfold State.join
  split
  · exact ⟨sound, done_waits state⟩
  · rename_i open_
    split
    · exact drain_gate_sound state children sound ((phase_late state.phase late).resolve_right open_)
    · exact drained_sound state children sound late

theorem close_impl_sound (state : State) (children : Nat) (sound : Sound state children)
    (listening : state.phase = .Listening → children ≠ 0) :
    Sound state.close_impl.1 children ∧ Waits state.close_impl.1 state.close_impl.2 := by
  unfold State.close_impl
  split
  · exact ⟨sound, done_waits state⟩
  · obtain ⟨begun, late⟩ := begin_close_sound state children sound listening
    exact join_sound _ children begun late

theorem resume_sound (state : State) (children : Nat) (sound : Sound state children) (call : CloseCall) (waits : Waits state call) :
    Sound (state.resume call).1 children ∧ Waits (state.resume call).1 (state.resume call).2 := by
  cases call with
  | done => exact ⟨sound, done_waits state⟩
  | completing gate => exact wait_sound state children sound (waits.late (by simp))
  | draining gate =>
      have late := waits.late (by simp)
      simp only [State.resume]
      split
      · rename_i some_
        rw [sound.count] at some_
        refine drain_gate_sound state children sound ((phase_late state.phase late).resolve_right fun closed => ?_)
        exact absurd (sound.closed closed).1 (by omega)
      · exact drained_sound state children sound late

end sound

section runs

def Run.loops (run : Run) : Nat := if run.accept_loop.isSome then 1 else 0

-- The accept loop while it runs, and each session.
def Run.children (run : Run) : Nat := run.loops + run.sessions.length

structure Inv (run : Run) : Prop where
  sound : Sound run.state run.children
  listening : run.state.phase = .Listening → run.accept_loop.isSome
  waits : ∀ call ∈ run.closes, Waits run.state call

theorem inv_children (run : Run) (inv : Inv run) (listening : run.state.phase = .Listening) : run.children ≠ 0 := by
  have loop := inv.listening listening
  rw [Run.children, Run.loops, if_pos loop]
  omega

-- What an event does to the server, apart from the rollback of a listen.
structure Kept (before after : Run) : Prop where
  inv : Inv after
  steps : Steps before.state after.state

theorem not_listening (phase : Phase) (late : Phase.rank .Closing ≤ phase.rank) : phase ≠ .Listening := by
  rintro rfl
  exact absurd late (by decide)

-- A step of the server with the same calls waiting as before.
theorem kept_state (run after : Run) (inv : Inv run) (steps : Steps run.state after.state)
    (sound : Sound after.state after.children) (closes : after.closes = run.closes)
    (listening : after.state.phase = .Listening → after.accept_loop.isSome) : Kept run after := by
  refine ⟨⟨sound, listening, ?_⟩, steps⟩
  intro call member
  exact waits_later _ _ steps call (inv.waits call (closes ▸ member))

theorem leave_kept (run : Run) (inv : Inv run) (runs : run.accept_loop.isSome) : Kept run run.leave := by
  have children : run.children = run.sessions.length + 1 := by
    rw [Run.children, Run.loops, if_pos runs, Nat.add_comm]
  have here := inv.sound
  rw [children] at here
  have sound : Sound { run.state with accept_loop_running := false } (run.sessions.length + 1) :=
    ⟨⟨here.count, here.created, here.early, here.closed, here.once⟩, here.closing⟩
  have stopped : Steps run.state { run.state with accept_loop_running := false } := steps_within _ _ rfl rfl fun _ known => known
  have left : ∀ closed : State, Steps run.state closed → Sound closed (run.sessions.length + 1) →
      Phase.rank .Closing ≤ closed.phase.rank → Kept run { run with state := closed.child_dec, accept_loop := none } := by
    intro closed steps kept late
    have ends := steps_trans _ _ _ steps (child_dec_steps closed)
    refine kept_state run _ inv ends ?_ rfl fun listening => ?_
    · have fewer := child_dec_sound closed _ kept
      rwa [Run.children, Run.loops, if_neg (by simp), Nat.zero_add]
    · exact absurd listening (not_listening _ (Nat.le_trans late (child_dec_steps closed).forward))
  unfold Run.leave
  dsimp only
  by_cases listening : run.state.phase = .Listening
  · obtain ⟨begun, late⟩ := begin_close_sound _ _ sound fun _ => by omega
    rw [if_pos listening]
    exact left _ (steps_trans _ _ _ stopped (begin_close_steps _)) begun late
  · rw [if_neg listening]
    refine left _ stopped sound ?_
    change _ ≤ run.state.phase.rank
    cases phase : run.state.phase with
    | Created => exact absurd (here.created phase) (by omega)
    | Listening => exact absurd phase listening
    | Closing => decide
    | Closed => decide

theorem kept_trans (first middle last : Run) (earlier : Kept first middle) (later : Kept middle last) : Kept first last :=
  ⟨later.inv, steps_trans _ _ _ earlier.steps later.steps⟩

theorem kept_refl (run : Run) (inv : Inv run) : Kept run run := ⟨inv, steps_refl _⟩

theorem loop_kept (run : Run) (inv : Inv run) (runs : run.accept_loop.isSome) : Kept run run.loop := by
  unfold Run.loop
  split
  · refine kept_state run _ inv (steps_refl _) ?_ rfl fun _ => rfl
    have same : ({ run with accept_loop := some .accepting } : Run).children = run.children := by
      simp [Run.children, Run.loops, runs]
    rw [same]
    exact inv.sound
  · exact leave_kept run inv runs

theorem begin_close_kept (run : Run) (inv : Inv run) : Kept run { run with state := run.state.begin_close } := by
  obtain ⟨sound, late⟩ := begin_close_sound run.state run.children inv.sound (inv_children run inv)
  exact kept_state run _ inv (begin_close_steps run.state) sound rfl fun listening => absurd listening (not_listening _ late)

theorem accept_kept (run : Run) (inv : Inv run) (outcome : AcceptOutcome) (runs : run.accept_loop.isSome) :
    Kept run (run.accept outcome) := by
  have leaves := leave_kept run inv runs
  have closes : Kept run ({ run with state := run.state.begin_close } : Run).leave :=
    kept_trans _ _ _ (begin_close_kept run inv) (leave_kept _ (begin_close_kept run inv).inv runs)
  cases outcome with
  | error aborted =>
      simp only [Run.accept]
      split
      · exact leaves
      · exact closes
  | thrown =>
      simp only [Run.accept]
      split
      · exact closes
      · exact leaves
  | session spawned =>
      simp only [Run.accept]
      split
      · exact leaves
      · rename_i listening
        rw [not_not] at listening
        have sound := inv.sound
        have count : run.state.child_count = run.children := sound.count
        cases spawned with
        | true =>
            have counted : Kept run
                { run with
                  state := run.state.child_inc
                  accepted := run.accepted + 1
                  sessions := run.sessions ++ [run.accepted] } := by
              refine kept_state run _ inv (steps_within _ _ rfl rfl fun _ known => known) ?_ rfl inv.listening
              have more : ({ run with
                  state := run.state.child_inc
                  accepted := run.accepted + 1
                  sessions := run.sessions ++ [run.accepted] } : Run).children = run.children + 1 := by
                simp [Run.children, Run.loops, Nat.add_assoc]
              rw [more]
              refine ⟨⟨congrArg (· + 1) count, ?_, sound.early, ?_, sound.once⟩, fun _ => Nat.succ_ne_zero _⟩
              · intro created
                exact nomatch listening.symm.trans created
              · intro closed
                exact nomatch listening.symm.trans closed
            exact kept_trans _ _ _ counted (loop_kept _ counted.inv runs)
        | false =>
            have same : run.state.child_inc.child_dec = run.state := by
              have some_ : run.state.child_count ≠ 0 := count ▸ inv_children run inv listening
              simp [State.child_inc, State.child_dec, some_]
            have counted : Kept run { run with state := run.state.child_inc.child_dec, accepted := run.accepted + 1 } := by
              rw [same]
              exact kept_state run _ inv (steps_refl _) sound rfl inv.listening
            exact kept_trans _ _ _ counted (loop_kept _ counted.inv runs)

theorem session_kept (run : Run) (inv : Inv run) (session : Nat) (live : session ∈ run.sessions) :
    Kept run { run with state := run.state.child_dec, sessions := run.sessions.erase session } := by
  have shorter := List.length_erase_of_mem live
  have some_ := List.length_pos_of_mem live
  have sound := inv.sound
  have children : run.children = (run.loops + (run.sessions.length - 1)) + 1 := by
    rw [Run.children]
    omega
  rw [children] at sound
  refine kept_state run _ inv (child_dec_steps _) ?_ rfl fun listening => inv.listening ?_
  · have fewer := child_dec_sound run.state _ sound
    rw [← shorter] at fewer
    exact fewer
  · have forward := (child_dec_steps run.state).forward
    rw [listening] at forward
    cases phase : run.state.phase with
    | Listening => rfl
    | Created => exact absurd (sound.created phase) (Nat.succ_ne_zero _)
    | Closing =>
        rw [phase] at forward
        exact absurd forward (by decide)
    | Closed =>
        rw [phase] at forward
        exact absurd forward (by decide)

theorem close_impl_late (state : State) (children : Nat) (sound : Sound state children)
    (listening : state.phase = .Listening → children ≠ 0) : Phase.rank .Closing ≤ state.close_impl.1.phase.rank := by
  unfold State.close_impl
  split
  · rename_i closed
    rw [closed]
    decide
  · exact Nat.le_trans (begin_close_sound state children sound listening).2 (join_steps _).forward

theorem close_kept (run : Run) (inv : Inv run) : Kept run (run.next .async_close) := by
  obtain ⟨sound, waits⟩ := close_impl_sound run.state run.children inv.sound (inv_children run inv)
  have steps := close_impl_steps run.state
  have late := close_impl_late run.state run.children inv.sound (inv_children run inv)
  refine ⟨⟨sound, fun listening => absurd listening (not_listening _ late), ?_⟩, steps⟩
  intro call member
  rcases List.mem_append.mp member with old | new
  · exact waits_later _ _ steps call (inv.waits call old)
  · rw [List.mem_singleton] at new
    rw [new]
    exact waits

theorem resumes_kept (run : Run) (inv : Inv run) (call : Nat) : Kept run (run.next (.resumes call)) := by
  simp only [Run.next]
  cases found : run.closes[call]? with
  | none => exact kept_refl run inv
  | some waits =>
      have here := inv.waits waits (List.mem_of_getElem? found)
      obtain ⟨sound, later⟩ := resume_sound run.state run.children inv.sound waits here
      have steps := resume_steps run.state waits
      refine ⟨⟨sound, ?_, ?_⟩, steps⟩
      · intro listening
        by_cases ended : waits = .done
        · subst ended
          exact inv.listening listening
        · exact absurd listening (not_listening _ (Nat.le_trans (here.late ended) steps.forward))
      · intro other member
        rcases List.mem_or_eq_of_mem_set member with old | rfl
        · exact waits_later _ _ steps other (inv.waits other old)
        · exact later

theorem disposes_kept (run : Run) (inv : Inv run) : Kept run (run.next .disposes) := by
  simp only [Run.next]
  split
  · exact kept_refl run inv
  · split
    · exact kept_state run _ inv (steps_refl _) inv.sound rfl inv.listening
    · obtain ⟨begun, steps⟩ := begin_close_kept run inv
      exact kept_state run _ inv steps begun.sound rfl begun.listening

-- The one event that takes the phase back, from a listening that nobody has seen.
def Event.rollsBack : Event → Bool
  | .async_listen (.spawn_failed _) => true
  | _ => false

theorem listen_inv (run : Run) (inv : Inv run) (outcome : ListenOutcome) : Inv (run.next (.async_listen outcome)) := by
  by_cases created : run.state.phase = .Created
  · have empty := inv.sound.created created
    have alone : run.accept_loop.isSome = false ∧ run.sessions.length = 0 := by
      rw [Run.children, Run.loops] at empty
      cases loop : run.accept_loop.isSome with
      | false => exact ⟨rfl, by omega⟩
      | true =>
          rw [loop, if_pos rfl] at empty
          omega
    have waits : ∀ call ∈ run.closes, call = .done := by
      intro call member
      by_cases ended : call = .done
      · exact ended
      · have late := (inv.waits call member).late ended
        rw [created] at late
        exact absurd late (by decide)
    have listens := listen_sound run.state outcome (empty ▸ inv.sound) created
    have ended : ∀ after, ∀ call ∈ run.closes, Waits after call := by
      intro after call member
      rw [waits call member]
      exact done_waits after
    cases outcome with
    | refused =>
        refine ⟨?_, ?_, ended _⟩
        · simpa [Run.next, State.async_listen, Run.children, Run.loops, created] using inv.sound
        · intro listening
          exact nomatch listens.2.symm.trans listening
    | spawn_failed bound =>
        refine ⟨?_, ?_, ended _⟩
        · have unseen : (run.next (.async_listen (.spawn_failed bound))).children = 0 := by
            simp [Run.next, Run.children, Run.loops, alone, created, listens.2]
          rw [unseen]
          exact listens.1
        · intro listening
          exact nomatch listens.2.symm.trans listening
    | listening bound =>
        refine ⟨?_, ?_, ended _⟩
        · have first : (run.next (.async_listen (.listening bound))).children = 1 := by
            simp [Run.next, Run.children, Run.loops, alone, created, listens.2]
          rw [first]
          exact listens.1
        · intro _
          simp [Run.next, created, listens.2]
  · have same : run.state.async_listen outcome = run.state := if_pos created
    have quiet : run.next (.async_listen outcome) = run := by
      simp only [Run.next, same]
      rw [if_neg (fun both => both.1 both.2)]
    rw [quiet]
    exact inv

theorem listen_steps (run : Run) (outcome : ListenOutcome) (holds : Event.rollsBack (.async_listen outcome) = false) :
    Steps run.state (run.next (.async_listen outcome)).state := by
  change Steps run.state (run.state.async_listen outcome)
  unfold State.async_listen
  split
  · exact steps_refl _
  · rename_i created
    rw [not_not] at created
    cases outcome with
    | refused => exact steps_refl _
    | listening bound => exact commit_steps run.state bound created
    | spawn_failed bound => cases holds

theorem next_inv (run : Run) (event : Event) (inv : Inv run) : Inv (run.next event) ∧
    (event.rollsBack = false → Steps run.state (run.next event).state) := by
  have kept : Kept run (run.next event) → Inv (run.next event) ∧ (event.rollsBack = false → Steps run.state (run.next event).state) :=
    fun kept => ⟨kept.inv, fun _ => kept.steps⟩
  cases event with
  | async_listen outcome => exact ⟨listen_inv run inv outcome, listen_steps run outcome⟩
  | starts =>
      refine kept ?_
      simp only [Run.next]
      split
      · rename_i starting
        exact loop_kept run inv (by simp [starting])
      · exact kept_refl run inv
  | accepts outcome =>
      refine kept ?_
      simp only [Run.next]
      split
      · rename_i accepting
        exact accept_kept run inv outcome (by simp [accepting])
      · exact kept_refl run inv
  | session_ends session =>
      refine kept ?_
      simp only [Run.next]
      split
      · rename_i live
        exact session_kept run inv session live
      · exact kept_refl run inv
  | async_close => exact kept (close_kept run inv)
  | resumes call => exact kept (resumes_kept run inv call)
  | dispose => exact kept (kept_state run _ inv (steps_refl _) inv.sound rfl inv.listening)
  | disposes => exact kept (disposes_kept run inv)

theorem run_inv (events : List Event) : Inv (runFrom Run.next newServer events) := by
  refine run_holds Run.next Inv (fun run event inv => (next_inv run event inv).1) newServer events ?_
  refine ⟨⟨⟨rfl, fun _ => rfl, fun _ => rfl, ?_, rfl⟩, ?_⟩, ?_, ?_⟩
  · intro closed
    cases closed
  · intro closing
    cases closing
  · intro listening
    cases listening
  · intro call member
    cases member

end runs

section lifecycle

-- What holds of the server whenever its executor is idle.
structure Lifecycle (run : Run) : Prop where
  children : run.state.child_count = run.children
  -- With no child left the server is closed at once.
  closing : run.state.phase = .Closing → run.state.child_count ≠ 0
  drained : run.state.phase = .Closed → run.state.child_count = 0
  closed_once : (run.state.changes.filter (·.after = .Closed)).length = if run.state.phase = .Closed then 1 else 0
  -- Every call that still waits on a closed server has been woken, and returns when it resumes.
  woken : run.state.phase = .Closed → ∀ call ∈ run.closes, ∀ gate, call.gate = some gate → gate ∈ run.state.cancelled
  returns : run.state.phase = .Closed → ∀ i < run.closes.length, (run.next (.resumes i)).closes[i]? = some .done

-- A listen that fails to start its loop leaves the phase where it was; every other event takes it forward only.
def Advances (run : Run) (event : Event) : Prop :=
  if event.rollsBack then
    (run.next event).state.phase = run.state.phase ∧
      ∃ made, (run.next event).state.changes = run.state.changes ++ made ∧
        (made = [] ∨ made = [⟨.Created, .Listening, 0⟩, ⟨.Listening, .Created, 1⟩])
  else
    run.state.phase.rank ≤ (run.next event).state.phase.rank ∧
      ∃ made, (run.next event).state.changes = run.state.changes ++ made ∧ ∀ change ∈ made, change.Forward

theorem rollback_changes (state : State) (bound : ListenAddress) (sound : Sound state 0) (created : state.phase = .Created) :
    (state.commit bound).rollback.changes = state.changes ++ [⟨.Created, .Listening, 0⟩, ⟨.Listening, .Created, 1⟩] := by
  have count : state.child_count = 0 := sound.count
  simp [State.rollback, State.commit, State.child_dec, State.child_inc, State.assign, State.wake_drain_waiters,
    State.try_finalize_close, count, created]

theorem rollback_advances (run : Run) (inv : Inv run) (bound : ListenAddress) :
    Advances run (.async_listen (.spawn_failed bound)) := by
  unfold Advances
  rw [if_pos (show Event.rollsBack (.async_listen (.spawn_failed bound)) = true from rfl)]
  by_cases created : run.state.phase = .Created
  · have sound : Sound run.state 0 := inv.sound.created created ▸ inv.sound
    have listens := listen_sound run.state (.spawn_failed bound) sound created
    refine ⟨listens.2.trans created.symm, _, ?_, Or.inr rfl⟩
    change (run.state.async_listen (.spawn_failed bound)).changes = _
    rw [State.async_listen, if_neg (not_not_intro created)]
    exact rollback_changes run.state bound sound created
  · have same : run.state.async_listen (.spawn_failed bound) = run.state := if_pos created
    change (run.state.async_listen (.spawn_failed bound)).phase = _ ∧ _
    refine ⟨by rw [same], [], ?_, Or.inl rfl⟩
    change (run.state.async_listen (.spawn_failed bound)).changes = _
    rw [same, List.append_nil]

theorem resume_closed (state : State) (call : CloseCall) (closed : state.phase = .Closed) (empty : state.child_count = 0) :
    (state.resume call).2 = .done := by
  have final : state.wait_close_complete.2 = .done := by
    rw [State.wait_close_complete, if_neg (not_not_intro closed)]
  have still : state.try_finalize_close = state := by
    rw [State.try_finalize_close, if_pos (by rw [closed]; decide)]
  cases call with
  | draining gate =>
      simp only [State.resume]
      rw [if_neg (by omega), State.drained, still]
      exact final
  | completing gate => exact final
  | done => rfl

example :
    let run := runFrom Run.next newServer
      [.async_listen (.listening ⟨"127.0.0.1", 8080⟩), .starts, .accepts (.session true), .async_close, .accepts (.error true),
        .session_ends 0, .resumes 0]
    run.state.phase = .Closed ∧ run.closes = [.done] := by
  decide

end lifecycle

end Vacps.Native.Http
