import Vacps.Library.Custody

/- script/src/runtime/terminal-sessions.ts: opening, closing and reaping terminal sessions. A session's identity is
   the number of its terminal, and each turn of an idle reaper is a call of its own. -/
set_option autoImplicit false

namespace Vacps.TerminalSessions

open Library

def SESSION_CAPACITY : Nat := 64

def FINISHED_RETENTION_MS : Int := 10 * 60 * 1000

def DEFAULT_IDLE_TIMEOUT_MS : Int := 30 * 60 * 1000

structure ProtocolError where
  code : String
  message : String
  statusCode : Nat
deriving DecidableEq, Repr

structure TerminalSession where
  idleTimeoutMs : Int
  lastActivityMs : Int
  finishedAtMs : Option Int
  closing : Bool

-- The manager's map and flag; the session objects; how many terminals were started, and those whose process runs.
structure SessionsState where
  sessions : List Nat
  closed : Bool
  objects : Nat → Option TerminalSession
  started : Nat
  running : List Nat

inductive SessionOp where
  | values
  -- A turn of pruneForAdmission's loop up to its await.
  | prune (id : Nat) (now : Int)
  | admission
  | resolveExecutable (found : Bool)
  | start (starts : Bool)
  | closeUnstarted
  | register (id : Nat) (now : Int) (idleTimeoutMs : Int)
  | beginClose (id : Nat)
  -- The end of closeTerminal, behind session.close.
  | endClose (id : Nat)
  | reap (id : Nat) (now : Int)
  -- session.close of a removed session resolves.
  | closed (id : Nat)
  | takeSessions
  -- So does Promise.all of close.
  | closedAll (ids : List Nat)
  | exit (id : Nat)
  | complete (id : Nat) (now : Int)
  | touch (id : Nat) (now : Int)

def SessionRes : SessionOp → Type
  | .values => List Nat
  | .prune _ _ => Bool
  | .start _ => Nat
  | .reap _ _ => Bool
  | .takeSessions => Option (List Nat)
  | _ => Unit

section state

def capacityError : ProtocolError :=
  ⟨"terminal_capacity", "Terminal capacity is " ++ toString SESSION_CAPACITY ++ "; close an existing live terminal.", 503⟩

def notFoundError (id : Nat) : ProtocolError := ⟨"terminal_not_found", "Terminal '" ++ toString id ++ "' was not found.", 404⟩

-- What resolving the program or starting the terminal fails with is not looked at.
def startError : ProtocolError := ⟨"start", "", 500⟩

variable (state : SessionsState)

def SessionsState.update (id : Nat) (change : TerminalSession → TerminalSession) : SessionsState :=
  { state with objects := fun other => if other = id then (state.objects other).map change else state.objects other }

def finishedFor (session : TerminalSession) (now : Int) : Bool :=
  match session.finishedAtMs with
  | some finishedAtMs => decide (FINISHED_RETENTION_MS ≤ now - finishedAtMs)
  | none => false

def idleFor (session : TerminalSession) (now : Int) : Bool :=
  session.finishedAtMs.isNone && decide (session.idleTimeoutMs ≤ now - session.lastActivityMs)

-- The rest of remove up to its await, with the beginning of session.close.
def SessionsState.remove (id : Nat) : SessionsState :=
  { state.update id fun session => { session with closing := true } with sessions := state.sessions.erase id }

def prunes (id : Nat) (now : Int) : Bool :=
  (match state.objects id with
    | some session => finishedFor session now
    | none => false) && state.sessions.contains id

def reaps (id : Nat) (now : Int) : Bool :=
  !state.closed && state.sessions.contains id &&
    match state.objects id with
    | some session => finishedFor session now || idleFor session now
    | none => false

def SessionsState.ended (ids : List Nat) : SessionsState := { state with running := state.running.filter fun id => !ids.contains id }

def sessionExec : (op : SessionOp) → SessionsState → Except ProtocolError (SessionRes op) × SessionsState
  | .values, state => (.ok state.sessions, state)
  | .prune id now, state => if prunes state id now then (.ok true, state.remove id) else (.ok false, state)
  | .admission, state => if SESSION_CAPACITY ≤ state.sessions.length then (.error capacityError, state) else (.ok (), state)
  | .resolveExecutable found, state => if found then (.ok (), state) else (.error startError, state)
  | .start starts, state =>
      if starts then (.ok state.started, { state with started := state.started + 1, running := state.running ++ [state.started] })
      else (.error startError, state)
  | .closeUnstarted, state => (.ok (), state)
  | .register id now idleTimeoutMs, state =>
      (.ok (),
        { state with
          sessions := state.sessions ++ [id]
          objects := fun other =>
            if other = id then some ⟨if idleTimeoutMs = 0 then DEFAULT_IDLE_TIMEOUT_MS else idleTimeoutMs, now, none, false⟩
            else state.objects other })
  | .beginClose id, state =>
      if state.sessions.contains id then (.ok (), state.update id fun session => { session with closing := true })
      else (.error (notFoundError id), state)
  | .endClose id, state => (.ok (), { state.ended [id] with sessions := state.sessions.erase id })
  | .reap id now, state => if reaps state id now then (.ok true, state.remove id) else (.ok false, state)
  | .closed id, state => (.ok (), state.ended [id])
  | .takeSessions, state =>
      if state.closed then (.ok none, state)
      else
        (.ok (some state.sessions),
          { state with
            closed := true
            sessions := []
            objects := fun id =>
              if state.sessions.contains id then (state.objects id).map fun session => { session with closing := true }
              else state.objects id })
  | .closedAll ids, state => (.ok (), state.ended ids)
  | .exit id, state => (.ok (), state.ended [id])
  | .complete id now, state =>
      (.ok (), if state.running.contains id then state else state.update id fun session => { session with finishedAtMs := some now })
  | .touch id now, state => (.ok (), state.update id fun session => { session with lastActivityMs := now })

end state

section programs

abbrev Sessions (α : Type) : Type := Async SessionOp SessionRes ProtocolError α

def call (op : SessionOp) : Sessions (SessionRes op) := Async.perform op

-- What open is called with, what resolving and starting come to, and its readings of the clock.
structure OpenTerminalInput where
  found : Bool
  starts : Bool
  idleTimeoutMs : Int
  prunedAtMs : Int
  createdAtMs : Int

-- What is left of remove behind its check.
def closeRemoved (id : Nat) (removed : Bool) : Sessions Unit := if removed then call (.closed id) else pure ()

def pruneForAdmission (now : Int) : Sessions Unit := do
  let ids : List Nat ← call .values
  Async.forEach ids fun id => do
    let removed : Bool ← call (.prune id now)
    closeRemoved id removed

def openStarted (input : OpenTerminalInput) : Except ProtocolError Nat → Sessions Unit
  | .ok terminal => call (.register terminal input.createdAtMs input.idleTimeoutMs)
  | .error error => do
      call .closeUnstarted
      .fail error

def open_ (input : OpenTerminalInput) : Sessions Unit := do
  pruneForAdmission input.prunedAtMs
  call .admission
  call (.resolveExecutable input.found)
  let started ← (call (.start input.starts)).attempt
  openStarted input started

def closeTerminal (id : Nat) : Sessions Unit := do
  call (.beginClose id)
  call (.endClose id)

def reapWhenIdle (id : Nat) (now : Int) : Sessions Unit := do
  let removed : Bool ← call (.reap id now)
  closeRemoved id removed

def close : Sessions Unit := do
  let taken : Option (List Nat) ← call .takeSessions
  match taken with
  | some ids => call (.closedAll ids)
  | none => pure ()

-- The calls on the manager; the process of a terminal ends, its completion runs, a session is used.
inductive SessionCall where
  | open_ (input : OpenTerminalInput)
  | closeTerminal (id : Nat)
  | reapWhenIdle (id : Nat) (now : Int)
  | close
  | exit (id : Nat)
  | complete (id : Nat) (now : Int)
  | touch (id : Nat) (now : Int)

def sessionBody : SessionCall → Sessions Unit
  | .open_ input => TerminalSessions.open_ input
  | .closeTerminal id => TerminalSessions.closeTerminal id
  | .reapWhenIdle id now => TerminalSessions.reapWhenIdle id now
  | .close => TerminalSessions.close
  | .exit id => call (.exit id)
  | .complete id now => call (.complete id now)
  | .touch id now => call (.touch id now)

abbrev SessionsPool : Type := Pool SessionOp SessionRes ProtocolError Unit SessionCall SessionsState

def newSessions : SessionsPool := ⟨⟨[], false, fun _ => none, 0, []⟩, []⟩

end programs

section custody

-- A terminal that was started and is about to be registered, one that remove took out and is being closed, one that
-- close took, and the close call that took them.
inductive Charge where
  | opened (id : Nat)
  | removed (id : Nat)
  | taken (id : Nat)
  | closing

def holds : SessionOp → Charge → Prop
  | .register id _ _, .opened other => other = id
  | .closed id, .removed other => other = id
  | .closedAll ids, .taken id => id ∈ ids
  | .closedAll _, .closing => True
  | _, _ => False

def hands : SessionOp → SessionsState → Charge → Prop
  | .start starts, state, .opened id => starts = true ∧ id = state.started
  | .prune id now, state, .removed other => prunes state id now = true ∧ other = id
  | .reap id now, state, .removed other => reaps state id now = true ∧ other = id
  | .takeSessions, state, .taken id => state.closed = false ∧ id ∈ state.sessions
  | .takeSessions, state, .closing => state.closed = false
  | _, _, _ => False

-- Only open registers, and only close waits for all.
def owns (call : SessionCall) : SessionOp → Prop
  | .register _ _ _ => ∃ input, call = .open_ input
  | .closedAll _ => call = .close
  | _ => True

abbrev CarefulSessions {α : Type} (program : Sessions α) : Prop := program.Careful sessionExec hands holds

theorem call_careful (op : SessionOp) (nothing : ∀ state item, ¬hands op state item) : CarefulSessions (call op) :=
  careful_perform sessionExec hands holds op nothing

theorem close_removed (id : Nat) (removed : Bool) (item : Charge) :
    (closeRemoved id removed).Holds holds item ↔ removed = true ∧ item = .removed id := by
  cases removed with
  | false => exact iff_of_false (fun held => held) (fun both => nomatch both.1)
  | true =>
      change holds (.closed id) item ↔ _
      cases item <;> simp [holds]

theorem close_removed_careful (id : Nat) (removed : Bool) : CarefulSessions (closeRemoved id removed) := by
  cases removed with
  | false => exact trivial
  | true => exact call_careful _ fun _ _ given => given

theorem prune_careful (id : Nat) (now : Int) :
    CarefulSessions (call (.prune id now) >>= fun removed : Bool => closeRemoved id removed) := by
  refine careful_call sessionExec hands holds _ _ ?_ ?_
  · intro state removed answered
    refine ⟨fun item => (close_removed id removed item).trans ?_, close_removed_careful id removed⟩
    have same : removed = prunes state id now := by
      simp only [sessionExec] at answered
      split at answered
      · rename_i found
        cases answered
        exact found.symm
      · rename_i none_
        cases answered
        exact (Bool.eq_false_iff.mpr none_).symm
    rw [same]
    cases item <;> simp [hands]
  · intro state error item answered
    simp only [sessionExec] at answered
    split at answered <;> cases answered

theorem reap_careful (id : Nat) (now : Int) : CarefulSessions (reapWhenIdle id now) := by
  refine careful_call sessionExec hands holds (.reap id now) (fun removed => closeRemoved id removed) ?_ ?_
  · intro state removed answered
    refine ⟨fun item => (close_removed id removed item).trans ?_, close_removed_careful id removed⟩
    have same : removed = reaps state id now := by
      simp only [sessionExec] at answered
      split at answered
      · rename_i found
        cases answered
        exact found.symm
      · rename_i none_
        cases answered
        exact (Bool.eq_false_iff.mpr none_).symm
    rw [same]
    cases item <;> simp [hands]
  · intro state error item answered
    simp only [sessionExec] at answered
    split at answered <;> cases answered

theorem admission_careful (now : Int) : CarefulSessions (pruneForAdmission now) := by
  refine careful_then sessionExec hands holds _ _ (call_careful _ fun _ _ given => given) (fun ids => ?_) fun ids item => ?_
  · exact careful_for_each sessionExec hands holds ids _ (fun id => prune_careful id now) fun _ _ held => held
  · exact idle_for_each holds ids _ item fun _ held => held

theorem start_careful (input : OpenTerminalInput) :
    CarefulSessions ((call (.start input.starts)).attempt >>= fun started => openStarted input started) := by
  refine careful_asked sessionExec hands holds _ _ fun state => ?_
  cases starts : input.starts with
  | true =>
      refine ⟨fun item => ?_, call_careful _ fun _ _ given => given⟩
      change holds (.register state.started _ _) item ↔ hands (.start true) state item
      cases item <;> simp [holds, hands]
  | false =>
      refine ⟨fun item => ?_, ?_⟩
      · change holds .closeUnstarted item ↔ hands (.start false) state item
        cases item <;> simp [holds, hands]
      · exact careful_then sessionExec hands holds (call .closeUnstarted) _ (call_careful _ fun _ _ given => given)
          (fun _ => trivial) fun _ _ held => held

theorem open_careful (input : OpenTerminalInput) : CarefulSessions (open_ input) := by
  refine careful_then sessionExec hands holds _ _ (admission_careful input.prunedAtMs) (fun _ => ?_) fun _ _ held => held
  refine careful_then sessionExec hands holds (call .admission) _ (call_careful _ fun _ _ given => given) (fun _ => ?_) fun _ _ held => held
  exact careful_then sessionExec hands holds (call (.resolveExecutable input.found)) _ (call_careful _ fun _ _ given => given)
    (fun _ => start_careful input) fun _ _ held => held

theorem close_terminal_careful (id : Nat) : CarefulSessions (closeTerminal id) :=
  careful_then sessionExec hands holds (call (.beginClose id)) _ (call_careful _ fun _ _ given => given)
    (fun _ => call_careful _ fun _ _ given => given) fun _ _ held => held

theorem close_careful : CarefulSessions close := by
  refine careful_call sessionExec hands holds _ _ ?_ ?_
  · intro state taken answered
    simp only [sessionExec] at answered
    split at answered
    · rename_i closed
      cases answered
      refine ⟨fun item => iff_of_false (fun held => held) ?_, trivial⟩
      cases item <;> simp [hands, closed]
    · rename_i open_
      cases answered
      refine ⟨fun item => ?_, call_careful _ fun _ _ given => given⟩
      change holds (.closedAll state.sessions) item ↔ _
      cases item <;> simp [holds, hands, open_]
  · intro state error item answered
    simp only [sessionExec] at answered
    split at answered <;> cases answered

theorem body_careful (start : SessionCall) : CarefulSessions (sessionBody start) := by
  cases start with
  | open_ input => exact open_careful input
  | closeTerminal id => exact close_terminal_careful id
  | reapWhenIdle id now => exact reap_careful id now
  | close => exact close_careful
  | exit id => exact call_careful _ fun _ _ given => given
  | complete id now => exact call_careful _ fun _ _ given => given
  | touch id now => exact call_careful _ fun _ _ given => given

-- No call starts with something in hand.
theorem body_idle (start : SessionCall) (item : Charge) : ¬(sessionBody start).Holds holds item := by
  cases start <;> exact fun held => held

end custody

section steps

theorem prune_owned (start : SessionCall) (now : Int) : (pruneForAdmission now).Uses (owns start) := by
  refine uses_bind (owns start) _ _ (uses_perform _ _ trivial) fun ids => ?_
  refine uses_for_each (owns start) ids _ fun id => uses_bind (owns start) _ _ (uses_perform _ _ trivial) fun removed => ?_
  cases removed with
  | false => exact trivial
  | true => exact uses_perform _ _ trivial

theorem body_owned (start : SessionCall) : (sessionBody start).Uses (owns start) := by
  cases start with
  | open_ input =>
      refine uses_bind _ _ _ (prune_owned _ input.prunedAtMs) fun _ => uses_bind _ _ _ (uses_perform _ _ trivial) fun _ => ?_
      refine uses_bind _ _ _ (uses_perform _ _ trivial) fun _ => uses_bind _ _ _ (uses_attempt _ _ (uses_perform _ _ trivial)) fun started => ?_
      cases started with
      | ok terminal => exact uses_perform _ _ ⟨input, rfl⟩
      | error error => exact uses_bind _ _ _ (uses_perform _ _ trivial) fun _ => trivial
  | closeTerminal id => exact uses_bind _ _ _ (uses_perform _ _ trivial) fun _ => uses_perform _ _ trivial
  | reapWhenIdle id now =>
      refine uses_bind _ _ _ (uses_perform _ _ trivial) fun removed => ?_
      cases removed with
      | false => exact trivial
      | true => exact uses_perform _ _ trivial
  | close =>
      refine uses_bind _ _ _ (uses_perform _ _ trivial) fun taken => ?_
      cases taken with
      | none => exact trivial
      | some ids => exact uses_perform _ _ rfl
  | exit id => exact uses_perform _ _ trivial
  | complete id now => exact uses_perform _ _ trivial
  | touch id now => exact uses_perform _ _ trivial

-- What a call does to the map: only register adds to it.
theorem exec_sessions (op : SessionOp) (state : SessionsState) :
    (∀ id ∈ (sessionExec op state).2.sessions, id ∈ state.sessions ∨ holds op (.opened id)) ∧
      ((∀ id now idleTimeoutMs, op ≠ .register id now idleTimeoutMs) →
        (sessionExec op state).2.sessions.length ≤ state.sessions.length) := by
  have same : ∀ sessions : List Nat, sessions = state.sessions →
      (∀ id ∈ sessions, id ∈ state.sessions ∨ holds op (.opened id)) ∧
        ((∀ id now idleTimeoutMs, op ≠ .register id now idleTimeoutMs) → sessions.length ≤ state.sessions.length) := by
    rintro _ rfl
    exact ⟨fun id member => Or.inl member, fun _ => Nat.le_refl _⟩
  have erased : ∀ gone, (∀ id ∈ state.sessions.erase gone, id ∈ state.sessions ∨ holds op (.opened id)) ∧
      ((∀ id now idleTimeoutMs, op ≠ .register id now idleTimeoutMs) → (state.sessions.erase gone).length ≤ state.sessions.length) :=
    fun gone => ⟨fun id member => Or.inl (List.mem_of_mem_erase member), fun _ => List.length_erase_le⟩
  cases op with
  | prune id now =>
      simp only [sessionExec]
      split
      · exact erased id
      · exact same _ rfl
  | reap id now =>
      simp only [sessionExec]
      split
      · exact erased id
      · exact same _ rfl
  | endClose id => exact erased id
  | register id now idleTimeoutMs =>
      refine ⟨fun other member => ?_, fun not_ => absurd rfl (not_ id now idleTimeoutMs)⟩
      rcases List.mem_append.mp member with old | new
      · exact Or.inl old
      · exact Or.inr (List.mem_singleton.mp new)
  | takeSessions =>
      simp only [sessionExec]
      split
      · exact same _ rfl
      · exact ⟨fun id member => (nomatch member), fun _ => Nat.zero_le _⟩
  | admission | resolveExecutable _ | start _ | beginClose _ =>
      simp only [sessionExec]
      split <;> exact same _ rfl
  | complete id now =>
      simp only [sessionExec]
      refine same _ ?_
      split <;> rfl
  | values | closeUnstarted | closed _ | closedAll _ | exit _ | touch _ _ => exact same _ rfl

-- A terminal that runs behind a call ran before or was started; what left the map is in hand, and what was in hand
-- and is not any more is in the map or has ended.
theorem exec_running (op : SessionOp) (state : SessionsState) (id : Nat) (runs : id ∈ (sessionExec op state).2.running) :
    hands op state (.opened id) ∨
      (id ∈ state.running ∧ ¬holds op (.removed id) ∧ ¬holds op (.taken id) ∧
        (holds op (.opened id) → id ∈ (sessionExec op state).2.sessions) ∧
        (id ∈ state.sessions → id ∈ (sessionExec op state).2.sessions ∨ hands op state (.removed id) ∨ hands op state (.taken id))) := by
  have left : ∀ ids, id ∈ (state.ended ids).running → id ∈ state.running ∧ id ∉ ids := by
    intro ids member
    have both := List.mem_filter.mp member
    exact ⟨both.1, by simpa using both.2⟩
  have removed : ∀ gone, id ∈ state.sessions → id ∈ state.sessions.erase gone ∨ id = gone := by
    intro gone member
    by_cases same : id = gone
    · exact Or.inr same
    · exact Or.inl ((List.mem_erase_of_ne same).mpr member)
  cases op with
  | prune gone now =>
      simp only [sessionExec] at runs ⊢
      split at runs
      · rename_i prunes_
        rw [if_pos prunes_]
        refine Or.inr ⟨runs, fun held => held, fun held => held, False.elim, fun member => ?_⟩
        exact (removed gone member).imp_right fun same => Or.inl ⟨prunes_, same⟩
      · rename_i none_
        rw [if_neg none_]
        exact Or.inr ⟨runs, fun held => held, fun held => held, False.elim, Or.inl⟩
  | reap gone now =>
      simp only [sessionExec] at runs ⊢
      split at runs
      · rename_i reaps_
        rw [if_pos reaps_]
        refine Or.inr ⟨runs, fun held => held, fun held => held, False.elim, fun member => ?_⟩
        exact (removed gone member).imp_right fun same => Or.inl ⟨reaps_, same⟩
      · rename_i none_
        rw [if_neg none_]
        exact Or.inr ⟨runs, fun held => held, fun held => held, False.elim, Or.inl⟩
  | endClose gone =>
      obtain ⟨ran, other⟩ := left [gone] runs
      refine Or.inr ⟨ran, fun held => held, fun held => held, False.elim, fun member => ?_⟩
      exact (removed gone member).imp_right fun same => absurd (List.mem_singleton.mpr same) other
  | register opened now idleTimeoutMs =>
      refine Or.inr ⟨runs, fun held => held, fun held => held, fun same => ?_, fun member => Or.inl (List.mem_append_left _ member)⟩
      exact List.mem_append_right _ (List.mem_singleton.mpr same)
  | takeSessions =>
      simp only [sessionExec] at runs ⊢
      split at runs
      · rename_i closed
        rw [if_pos closed]
        exact Or.inr ⟨runs, fun held => held, fun held => held, False.elim, Or.inl⟩
      · rename_i open_
        rw [if_neg open_]
        refine Or.inr ⟨runs, fun held => held, fun held => held, False.elim, fun member => Or.inr (Or.inr ⟨?_, member⟩)⟩
        exact Bool.eq_false_iff.mpr open_
  | start starts =>
      simp only [sessionExec] at runs ⊢
      split at runs
      · rename_i starts_
        rw [if_pos starts_]
        rcases List.mem_append.mp runs with old | new
        · exact Or.inr ⟨old, fun held => held, fun held => held, False.elim, Or.inl⟩
        · exact Or.inl ⟨starts_, List.mem_singleton.mp new⟩
      · rename_i none_
        rw [if_neg none_]
        exact Or.inr ⟨runs, fun held => held, fun held => held, False.elim, Or.inl⟩
  | closed gone =>
      obtain ⟨ran, other⟩ := left [gone] runs
      exact Or.inr ⟨ran, fun same => other (List.mem_singleton.mpr same), fun held => held, False.elim, Or.inl⟩
  | closedAll ids =>
      obtain ⟨ran, other⟩ := left ids runs
      exact Or.inr ⟨ran, fun held => held, other, False.elim, Or.inl⟩
  | exit gone => exact Or.inr ⟨(left [gone] runs).1, fun held => held, fun held => held, False.elim, Or.inl⟩
  | admission | resolveExecutable _ | beginClose _ | complete _ _ =>
      simp only [sessionExec] at runs ⊢
      split at runs
      · rename_i test
        rw [if_pos test]
        exact Or.inr ⟨runs, fun held => held, fun held => held, False.elim, Or.inl⟩
      · rename_i test
        rw [if_neg test]
        exact Or.inr ⟨runs, fun held => held, fun held => held, False.elim, Or.inl⟩
  | values | closeUnstarted | touch _ _ => exact Or.inr ⟨runs, fun held => held, fun held => held, False.elim, Or.inl⟩

theorem exec_closed (op : SessionOp) (state : SessionsState) (closed : (sessionExec op state).2.closed = true) :
    state.closed = true ∨ (hands op state .closing ∧ (sessionExec op state).2.sessions = []) := by
  cases op with
  | takeSessions =>
      simp only [sessionExec] at closed ⊢
      split at closed
      · exact Or.inl ‹_›
      · rename_i open_
        rw [if_neg open_]
        exact Or.inr ⟨Bool.eq_false_iff.mpr open_, rfl⟩
  | prune _ _ | reap _ _ | admission | resolveExecutable _ | start _ | beginClose _ | complete _ _ =>
      simp only [sessionExec] at closed
      split at closed <;> exact Or.inl closed
  | values | closeUnstarted | closed _ | closedAll _ | exit _ | touch _ _ | register _ _ _ | endClose _ => exact Or.inl closed

theorem exec_started (op : SessionOp) (state : SessionsState) :
    state.started ≤ (sessionExec op state).2.started ∧
      ∀ id, hands op state (.opened id) → id = state.started ∧ id < (sessionExec op state).2.started := by
  cases op with
  | start starts =>
      simp only [sessionExec]
      split
      · refine ⟨Nat.le_succ _, ?_⟩
        rintro id ⟨_, rfl⟩
        exact ⟨rfl, Nat.lt_succ_self _⟩
      · rename_i none_
        exact ⟨Nat.le_refl _, fun id given => absurd given.1 none_⟩
  | prune _ _ | reap _ _ | admission | resolveExecutable _ | beginClose _ | complete _ _ | takeSessions =>
      simp only [sessionExec]
      split <;> exact ⟨Nat.le_refl _, fun id given => given.elim⟩
  | values | closeUnstarted | closed _ | closedAll _ | exit _ | touch _ _ | register _ _ _ | endClose _ =>
      exact ⟨Nat.le_refl _, fun id given => given.elim⟩

end steps

section runs

def Waits (pool : SessionsPool) (item : Charge) : Prop := InHand holds pool.threads item

-- The step it is about to take is right: open registers below the capacity and before close is called, and close ends
-- when everything that remove took out has ended.
def Admitted (pool : SessionsPool) : PoolEvent SessionCall → Prop
  | .start _ => True
  | .step i => ∀ start op rest, pool.threads[i]? = some ⟨start, .call op rest⟩ →
      (∀ id now idleTimeoutMs, op = .register id now idleTimeoutMs →
        pool.state.sessions.length < SESSION_CAPACITY ∧ pool.state.closed = false) ∧
      (∀ ids, op = .closedAll ids → ∀ id ∈ pool.state.running, ¬Waits pool (.removed id))

structure SessionsHold (pool : SessionsPool) : Prop where
  careful : ∀ thread ∈ pool.threads, CarefulSessions thread.rest
  owned : ∀ thread ∈ pool.threads, thread.rest.Uses (owns thread.call)
  small : pool.state.sessions.length ≤ SESSION_CAPACITY
  covered : ∀ id ∈ pool.state.running,
    id ∈ pool.state.sessions ∨ Waits pool (.opened id) ∨ Waits pool (.removed id) ∨ Waits pool (.taken id)
  emptied : pool.state.closed = true → pool.state.sessions = []
  fresh : ∀ id, id ∈ pool.state.sessions ∨ Waits pool (.opened id) ∨ Waits pool (.removed id) → id < pool.state.started
  drained : pool.state.closed = true → Waits pool .closing ∨ ∀ id ∈ pool.state.running, ¬Waits pool (.removed id)

theorem handed_removed (op : SessionOp) (state : SessionsState) (id : Nat) (given : hands op state (.removed id)) : id ∈ state.sessions := by
  cases op with
  | prune gone now =>
      obtain ⟨prunes_, rfl⟩ := given
      rw [prunes, Bool.and_eq_true] at prunes_
      simpa using prunes_.2
  | reap gone now =>
      obtain ⟨reaps_, rfl⟩ := given
      rw [reaps, Bool.and_eq_true, Bool.and_eq_true] at reaps_
      simpa using reaps_.1.2
  | _ => exact given.elim

theorem start_holds (pool : SessionsPool) (start : SessionCall) (hold : SessionsHold pool) :
    SessionsHold (pool.perform sessionExec sessionBody (.start start)) := by
  have kept : ∀ item, Waits pool item → InHand holds (pool.threads ++ [⟨start, sessionBody start⟩]) item := by
    rintro item ⟨thread, member, holding⟩
    exact ⟨thread, List.mem_append_left _ member, holding⟩
  have back : ∀ item, InHand holds (pool.threads ++ [⟨start, sessionBody start⟩]) item → Waits pool item := by
    rintro item ⟨thread, member, holding⟩
    rcases List.mem_append.mp member with old | new
    · exact ⟨thread, old, holding⟩
    · rw [List.mem_singleton.mp new] at holding
      exact absurd holding (body_idle start item)
  refine ⟨?_, ?_, hold.small, ?_, hold.emptied, ?_, ?_⟩
  · intro thread member
    rcases List.mem_append.mp member with old | new
    · exact hold.careful thread old
    · rw [List.mem_singleton.mp new]
      exact body_careful start
  · intro thread member
    rcases List.mem_append.mp member with old | new
    · exact hold.owned thread old
    · rw [List.mem_singleton.mp new]
      exact body_owned start
  · intro id runs
    exact (hold.covered id runs).imp_right (Or.imp (kept _) (Or.imp (kept _) (kept _)))
  · intro id some_
    exact hold.fresh id (some_.imp_right (Or.imp (back _) (back _)))
  · intro closed
    exact (hold.drained closed).imp (kept _) fun none_ id runs waits => none_ id runs (back _ waits)

theorem step_holds (pool : SessionsPool) (i : Nat) (hold : SessionsHold pool) (admitted : Admitted pool (.step i)) :
    SessionsHold (pool.perform sessionExec sessionBody (.step i)) := by
  rcases advance_cases sessionExec pool i with lost | ⟨start, op, rest, found, taken⟩
  · rw [Pool.perform, lost]
    exact hold
  · rw [Pool.perform, taken]
    obtain ⟨registers, ends⟩ := admitted start op rest found
    have member := List.mem_of_getElem? found
    have careful := hold.careful _ member
    have owned := hold.owned _ member
    have kept := hand_kept holds pool.threads i start op rest found ⟨start, rest (sessionExec op pool.state).1⟩
    have given := hand_given sessionExec hands holds pool.threads i start op rest found pool.state careful
    have back := hand_cases sessionExec hands holds pool.threads i start op rest pool.state careful
    obtain ⟨added, fewer⟩ := exec_sessions op pool.state
    obtain ⟨later, opened⟩ := exec_started op pool.state
    -- Once close has been called nothing more is removed.
    have still : pool.state.closed = true → (∀ id ∈ pool.state.running, ¬Waits pool (.removed id)) →
        ∀ id ∈ (sessionExec op pool.state).2.running,
          ¬InHand holds (pool.threads.set i ⟨start, rest (sessionExec op pool.state).1⟩) (.removed id) := by
      intro closed none_ id runs waits
      rcases back _ waits with old | new
      · rcases exec_running op pool.state id runs with new | ⟨ran, _⟩
        · have before := hold.fresh id (Or.inr (Or.inr old))
          have same := (opened id new).1
          omega
        · exact none_ id ran old
      · have there := handed_removed op pool.state id new
        rw [hold.emptied closed] at there
        cases there
    refine ⟨?_, ?_, ?_, ?_, ?_, ?_, ?_⟩
    · intro thread inside
      rcases List.mem_or_eq_of_mem_set inside with old | rfl
      · exact hold.careful thread old
      · exact (careful pool.state).2
    · intro thread inside
      rcases List.mem_or_eq_of_mem_set inside with old | rfl
      · exact hold.owned thread old
      · exact owned.2 _
    · by_cases registering : ∃ id now idleTimeoutMs, op = .register id now idleTimeoutMs
      · obtain ⟨id, now, idleTimeoutMs, rfl⟩ := registering
        have room := (registers id now idleTimeoutMs rfl).1
        change (pool.state.sessions ++ [id]).length ≤ SESSION_CAPACITY
        rw [List.length_append]
        exact room
      · exact Nat.le_trans (fewer fun id now idleTimeoutMs same => registering ⟨id, now, idleTimeoutMs, same⟩) hold.small
    · intro id runs
      rcases exec_running op pool.state id runs with new | ⟨ran, notRemoved, notTaken, registered, left⟩
      · exact Or.inr (Or.inl (given _ new))
      · rcases hold.covered id ran with inMap | waits | waits | waits
        · exact (left inMap).imp_right fun handed => Or.inr (handed.imp (given _) (given _))
        · exact (kept _ waits).imp registered Or.inl
        · exact Or.inr (Or.inr (Or.inl ((kept _ waits).resolve_left notRemoved)))
        · exact Or.inr (Or.inr (Or.inr ((kept _ waits).resolve_left notTaken)))
    · intro closed
      rcases exec_closed op pool.state closed with before | ⟨_, empty⟩
      · have none_ := fewer fun id now idleTimeoutMs same => by
          have open_ := (registers id now idleTimeoutMs same).2
          rw [before] at open_
          cases open_
        rw [hold.emptied before] at none_
        exact List.eq_nil_of_length_eq_zero (Nat.le_zero.mp none_)
      · exact empty
    · intro id some_
      rcases some_ with inMap | waits | waits
      · rcases added id inMap with old | held
        · exact Nat.lt_of_lt_of_le (hold.fresh id (Or.inl old)) later
        · exact Nat.lt_of_lt_of_le (hold.fresh id (Or.inr (Or.inl ⟨_, member, held⟩))) later
      · rcases back _ waits with old | new
        · exact Nat.lt_of_lt_of_le (hold.fresh id (Or.inr (Or.inl old))) later
        · exact (opened id new).2
      · rcases back _ waits with old | new
        · exact Nat.lt_of_lt_of_le (hold.fresh id (Or.inr (Or.inr old))) later
        · exact Nat.lt_of_lt_of_le (hold.fresh id (Or.inl (handed_removed op pool.state id new))) later
    · intro closed
      rcases exec_closed op pool.state closed with before | ⟨handed, _⟩
      · rcases hold.drained before with waits | none_
        · rcases kept _ waits with held | after
          · cases op with
            | closedAll ids => exact Or.inr (still before (ends ids rfl))
            | _ => exact held.elim
          · exact Or.inl after
        · exact Or.inr (still before none_)
      · exact Or.inl (given _ handed)

def Ended (thread : Thread SessionOp SessionRes ProtocolError Unit SessionCall) : Prop := ∀ op rest, thread.rest ≠ .call op rest

-- What is held at the end of a run is held by a call that has not settled.
theorem waits_owned (pool : SessionsPool) (hold : SessionsHold pool) (item : Charge) (waits : Waits pool item) :
    ∃ thread ∈ pool.threads, ∃ op, holds op item ∧ owns thread.call op ∧ ¬Ended thread := by
  obtain ⟨thread, member, holding⟩ := waits
  have owned := hold.owned thread member
  obtain ⟨start, rest⟩ := thread
  cases rest with
  | ret value => exact holding.elim
  | fail error => exact holding.elim
  | call op later => exact ⟨_, member, op, holding, owned.1, fun ended => ended op later rfl⟩

-- Over any run whose steps are admitted.
theorem sessions_hold (events : List (PoolEvent SessionCall))
    (guarded : newSessions.Guarded sessionExec sessionBody Admitted events) :
    let pool := newSessions.run sessionExec sessionBody events
    pool.state.sessions.length ≤ SESSION_CAPACITY ∧
      (pool.state.closed = true →
        (∀ thread ∈ pool.threads, (∃ input, thread.call = .open_ input) ∨ thread.call = .close → Ended thread) →
        pool.state.running = []) := by
  have hold : SessionsHold (newSessions.run sessionExec sessionBody events) := by
    refine run_keeps sessionExec sessionBody Admitted SessionsHold newSessions ?_ ?_ events guarded
    · refine ⟨fun _ member => (nomatch member), fun _ member => (nomatch member), Nat.zero_le _, fun _ member => (nomatch member),
        fun _ => rfl, ?_, fun closed => (nomatch closed)⟩
      rintro id (member | ⟨_, member, _⟩ | ⟨_, member, _⟩) <;> cases member
    · intro pool event here allowed
      cases event with
      | start start => exact start_holds pool start here
      | step i => exact step_holds pool i here allowed
  intro pool
  refine ⟨hold.small, fun closed settled => List.eq_nil_iff_forall_not_mem.mpr fun id runs => ?_⟩
  have closing : ¬Waits pool .closing := by
    intro waits
    obtain ⟨thread, member, op, held, owned, open_⟩ := waits_owned pool hold _ waits
    cases op with
    | closedAll ids => exact open_ (settled thread member (Or.inr owned))
    | _ => exact held.elim
  rcases hold.covered id runs with inMap | waits | waits | waits
  · rw [hold.emptied closed] at inMap
    cases inMap
  · obtain ⟨thread, member, op, held, owned, open_⟩ := waits_owned pool hold _ waits
    cases op with
    | register other now idleTimeoutMs => exact open_ (settled thread member (Or.inl owned))
    | _ => exact held.elim
  · rcases hold.drained closed with waits_ | none_
    · exact closing waits_
    · exact none_ id runs waits
  · obtain ⟨thread, member, op, held, owned, open_⟩ := waits_owned pool hold _ waits
    cases op with
    | closedAll ids => exact open_ (settled thread member (Or.inr owned))
    | _ => exact held.elim

def admittedNow (pool : SessionsPool) : PoolEvent SessionCall → Bool
  | .start _ => true
  | .step i =>
      match pool.threads[i]? with
      | some ⟨_, .call (.register _ _ _) _⟩ => decide (pool.state.sessions.length < SESSION_CAPACITY) && !pool.state.closed
      | some ⟨_, .call (.closedAll _) _⟩ =>
          pool.threads.all fun thread =>
            match thread.rest with
            | .call (.closed id) _ => !pool.state.running.contains id
            | _ => true
      | _ => true

theorem admitted_now (pool : SessionsPool) (event : PoolEvent SessionCall) (now : admittedNow pool event = true) : Admitted pool event := by
  cases event with
  | start start => exact trivial
  | step i =>
      intro start op rest found
      rw [admittedNow, found] at now
      refine ⟨?_, ?_⟩
      · rintro id at_ idleTimeoutMs rfl
        simpa using now
      · rintro ids rfl id runs ⟨thread, member, holding⟩
        have clear := List.all_eq_true.mp now thread member
        obtain ⟨other, rest⟩ := thread
        cases rest with
        | ret value => exact holding
        | fail error => exact holding
        | call op later =>
            cases op with
            | closed gone =>
                cases holding
                simp [runs] at clear
            | _ => exact holding

instance decidableEnded (thread : Thread SessionOp SessionRes ProtocolError Unit SessionCall) : Decidable (Ended thread) :=
  match thread with
  | ⟨_, .ret _⟩ => .isTrue fun _ _ same => nomatch same
  | ⟨_, .fail _⟩ => .isTrue fun _ _ same => nomatch same
  | ⟨_, .call op rest⟩ => .isFalse fun ended => ended op rest rfl

-- Two sessions; the first is reaped when it is idle, the second is closed with the manager.
theorem sessions_hold_reaped :
    let pool := newSessions.run sessionExec sessionBody
      ([.start (.open_ ⟨true, true, 0, 0, 0⟩), .step 0, .step 0, .step 0, .step 0, .step 0] ++
        [.start (.open_ ⟨true, true, 0, 10, 10⟩), .step 1, .step 1, .step 1, .step 1, .step 1, .step 1] ++
        [.start (.reapWhenIdle 0 1800000), .step 2, .step 2, .start .close, .step 3, .step 3])
    pool.state.started = 2 ∧ pool.state.closed = true ∧ pool.state.sessions.length ≤ SESSION_CAPACITY ∧ pool.state.running = [] := by
  intro pool
  have closed : pool.state.closed = true := by decide
  have settled : ∀ thread ∈ pool.threads, Ended thread := by decide
  obtain ⟨small, none_⟩ := sessions_hold
    ([.start (.open_ ⟨true, true, 0, 0, 0⟩), .step 0, .step 0, .step 0, .step 0, .step 0] ++
      [.start (.open_ ⟨true, true, 0, 10, 10⟩), .step 1, .step 1, .step 1, .step 1, .step 1, .step 1] ++
      [.start (.reapWhenIdle 0 1800000), .step 2, .step 2, .start .close, .step 3, .step 3])
    (guarded_passes sessionExec sessionBody Admitted admittedNow admitted_now newSessions _ (by decide))
  exact ⟨by decide, closed, small, none_ closed fun thread member _ => settled thread member⟩

-- Close is called while an open waits for its terminal to start; and 65 opens pass the check before any registers.
def openAtClose : List (PoolEvent SessionCall) :=
  [.start (.open_ ⟨true, true, 0, 0, 0⟩), .step 0, .step 0, .step 0, .step 0, .start .close, .step 1, .step 1, .step 0]

def openTogether : List (PoolEvent SessionCall) :=
  ((List.range 65).flatMap fun i => [.start (.open_ ⟨true, true, 0, 0, 0⟩), .step i, .step i]) ++
    (List.range 65).flatMap fun i => [.step i, .step i, .step i]

theorem open_races :
    (let pool := newSessions.run sessionExec sessionBody openAtClose;
      pool.state.closed = true ∧ (∀ thread ∈ pool.threads, Ended thread) ∧ pool.state.sessions = [0] ∧ pool.state.running = [0]) ∧
    (newSessions.run sessionExec sessionBody openTogether).state.sessions.length = 65 ∧
    ¬∀ events : List (PoolEvent SessionCall),
      let pool := newSessions.run sessionExec sessionBody events
      pool.state.sessions.length ≤ SESSION_CAPACITY ∧
        (pool.state.closed = true →
          (∀ thread ∈ pool.threads, (∃ input, thread.call = .open_ input) ∨ thread.call = .close → Ended thread) →
          pool.state.running = []) := by
  have many : (newSessions.run sessionExec sessionBody openTogether).state.sessions.length = 65 := by decide +kernel
  refine ⟨by decide, many, fun always => ?_⟩
  have small := (always openTogether).1
  rw [many] at small
  exact absurd small (by decide)

end runs

end Vacps.TerminalSessions
