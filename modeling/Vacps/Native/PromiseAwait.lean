import Vacps.Library.Runs

/- vacps-native/src/runtime/js_promise_await.cpp: a coroutine of the owner thread that waits for a thenable,
   its reactions, stop requests and a timer. The interrupt budget and what QuickJS allocates are left out. -/
set_option autoImplicit false

namespace Vacps.Native

open Library

section values

variable {Value : Type}

-- A handle that has been reset or moved from holds nothing.
abbrev OwnedValue (Value : Type) : Type := Option Value

inductive Errc where
  | cancelled
  | js_exception
  | native_failure
deriving DecidableEq, Repr

structure RuntimeError where
  code : Errc
  message : String
deriving DecidableEq, Repr

def RuntimeError.js (message : String) : RuntimeError := ⟨.js_exception, message⟩

def RuntimeError.native (message : String) : RuntimeError := ⟨.native_failure, message⟩

def RuntimeError.cancelled (message : String) : RuntimeError := ⟨.cancelled, message⟩

abbrev AwaitResult (Value : Type) : Type := Except RuntimeError (OwnedValue Value)

-- The text is what JS_ToCString makes of the value; it fails when the conversion throws.
def error_from_js_value (text : Option String) : RuntimeError := .js (text.getD "unknown JavaScript rejection")

def take_current_exception (operation : String) (text : Option String) : RuntimeError :=
  .js (operation ++ ": " ++ text.getD "unknown JavaScript exception")

inductive AwaitStatus where
  | pending
  | fulfilled
  | rejected
  | timed_out
  | cancelled
deriving DecidableEq, Repr

structure AwaitState (Value : Type) where
  status : AwaitStatus
  input : OwnedValue Value
  fulfilled : OwnedValue Value
  rejected_error : RuntimeError
  caller_stop_cb : Bool
  runtime_stop_cb : Bool
deriving DecidableEq, Repr

def newAwaitState (input : OwnedValue Value) : AwaitState Value := ⟨.pending, input, none, .native "", false, false⟩

-- A terminal transition, with what it hands to the coroutine.
inductive Terminal (Value : Type) where
  | fulfilled (value : OwnedValue Value)
  | rejected (error : RuntimeError)
  | timed_out
  | cancelled
deriving DecidableEq, Repr

def Terminal.outcome : Terminal Value → AwaitResult Value
  | .fulfilled value => .ok value
  | .rejected error => .error error
  | .timed_out => .error (.native "JS await timed out")
  | .cancelled => .error (.cancelled "JS await cancelled")

def AwaitState.terminal (state : AwaitState Value) : Option (Terminal Value) :=
  match state.status with
  | .pending => none
  | .fulfilled => some (.fulfilled state.fulfilled)
  | .rejected => some (.rejected state.rejected_error)
  | .timed_out => some .timed_out
  | .cancelled => some .cancelled

end values

section machine

variable {Value : Type}

inductive InputValue (Value : Type) where
  | exception
  | primitive (value : Value)
  | object (value : Value)
deriving DecidableEq, Repr

-- Where the coroutine stands: the parts of await_value between two looks at what others may change.
inductive AwaitPc (Value : Type) where
  | entry (value : InputValue Value)
  | lookup (value : Value)
  | caller_stop
  | runtime_stop
  | race
  | on_fulfill
  | on_reject
  | calling
  | thrown (text : Option String)
  | attached
  | pumped
  | armed
  | waiting
  | done (result : AwaitResult Value)

inductive TimerError where
  | success
  | operation_aborted
  | other (message : String)
deriving DecidableEq, Repr

inductive TimerWait where
  | idle
  | outstanding
  | completed (ec : TimerError)
deriving DecidableEq, Repr

-- Only a wait that is outstanding is cancelled.
def TimerWait.cancel : TimerWait → TimerWait
  | .outstanding => .completed .operation_aborted
  | wait => wait

structure AwaitToken where
  possible : Bool
  requested : Bool
deriving DecidableEq, Repr

-- With the terminal transitions there were, the first one first, and whether then has been called.
structure Await (Value : Type) where
  timeout : Int
  caller_stop : AwaitToken
  runtime_stop : AwaitToken
  posted : Nat
  pc : AwaitPc Value
  state : AwaitState Value
  converting : Nat
  timer : TimerWait
  applied : List (Terminal Value)
  called : Bool

def newAwait (value : InputValue Value) (timeout : Int) (caller_stop runtime_stop : AwaitToken) : Await Value :=
  ⟨timeout, caller_stop, runtime_stop, 0, .entry value, newAwaitState none, 0, .idle, [], false⟩

inductive StopSource where
  | caller
  | runtime
deriving DecidableEq, Repr

-- What the engine answers the coroutine's next part.
inductive EngineAnswer where
  | returned
  | notFunction
  | threw (text : Option String)
  | failed (error : RuntimeError)
deriving DecidableEq, Repr

-- A rejection is two events: the call, and the end of the conversion of its argument to a text, which is JavaScript.
inductive AwaitEvent (Value : Type) where
  | stop (source : StopSource)
  | cancel
  | fulfil (value : OwnedValue Value)
  | reject
  | converted (text : Option String)
  | expire
  | step (answer : EngineAnswer)
deriving DecidableEq, Repr

namespace Await

variable (await : Await Value)

def stopRequested : Bool := await.caller_stop.requested || await.runtime_stop.requested

def cancel_timer : Await Value := { await with timer := await.timer.cancel }

-- A write to the status, whatever it was.
def transition (terminal : Terminal Value) (state : AwaitState Value) : Await Value :=
  { await with state := state, applied := await.applied ++ [terminal] }

def apply_cancel_on_owner : Await Value :=
  if await.state.status ≠ .pending then await
  else (await.transition .cancelled { await.state with status := .cancelled, input := none, fulfilled := none }).cancel_timer

def rejectWith (error : RuntimeError) : Await Value :=
  (await.transition (.rejected error)
    { await.state with status := .rejected, rejected_error := error, fulfilled := none }).cancel_timer

def fulfilWith (value : OwnedValue Value) : Await Value :=
  (await.transition (.fulfilled value) { await.state with status := .fulfilled, fulfilled := value }).cancel_timer

-- co_return: the state goes with the frame of the coroutine.
def co_return (result : AwaitResult Value) : Await Value :=
  { await with
    pc := .done result
    state := { await.state with input := none, fulfilled := none, caller_stop_cb := false, runtime_stop_cb := false } }

def try_consume_terminal (pending : Await Value) : Await Value :=
  match await.state.terminal with
  | some terminal => await.co_return terminal.outcome
  | none => pending

-- emplace: a callback of a token that has been requested runs at once.
def install_caller : Await Value :=
  if await.caller_stop.possible then
    { await with
      state := { await.state with caller_stop_cb := true }
      posted := if await.caller_stop.requested then await.posted + 1 else await.posted }
  else await

def install_runtime : Await Value :=
  if await.runtime_stop.possible then
    { await with
      state := { await.state with runtime_stop_cb := true }
      posted := if await.runtime_stop.requested then await.posted + 1 else await.posted }
  else await

def resumed (ec : TimerError) : Await Value :=
  match ec with
  | .success =>
      let expired := await.transition .timed_out { await.state with status := .timed_out, fulfilled := none }
      expired.try_consume_terminal expired
  | .operation_aborted => await.co_return (.error (.cancelled "JS await cancelled"))
  | .other message => await.co_return (.error (.native ("JS await timer wait failed: " ++ message)))

def await_value (answer : EngineAnswer) : Await Value :=
  match await.pc, answer with
  | .entry .exception, .threw text => await.co_return (.error (take_current_exception "await_value" text))
  | .entry (.primitive value), _ =>
      if await.stopRequested then await.co_return (.error (.cancelled "JS await cancelled")) else await.co_return (.ok (some value))
  | .entry (.object value), _ =>
      if await.stopRequested then await.co_return (.error (.cancelled "JS await cancelled")) else { await with pc := .lookup value }
  | .lookup _, .threw text => await.co_return (.error (take_current_exception "await_value then" text))
  | .lookup value, .notFunction => await.co_return (.ok (some value))
  | .lookup value, .returned => { await with pc := .caller_stop, state := newAwaitState (some value) }
  | .caller_stop, _ => { await.install_caller with pc := .runtime_stop }
  | .runtime_stop, _ => { await.install_runtime with pc := .race }
  | .race, _ =>
      if await.stopRequested then await.apply_cancel_on_owner.try_consume_terminal await.apply_cancel_on_owner
      else { await with pc := .on_fulfill }
  | .on_fulfill, .failed error => await.co_return (.error error)
  | .on_fulfill, .returned => { await with pc := .on_reject }
  | .on_reject, .failed error => await.co_return (.error error)
  | .on_reject, .returned => { await with pc := .calling, called := true }
  | .calling, .threw text => { await with pc := .thrown text }
  | .calling, .returned => { await with pc := .attached }
  | .thrown text, _ =>
      if await.state.status = .pending then
        let failed := await.rejectWith (take_current_exception "await_value then call" text)
        failed.try_consume_terminal failed
      else { await with pc := .attached }
  | .attached, _ => await.try_consume_terminal { await with pc := .pumped }
  | .pumped, _ => await.try_consume_terminal { await with pc := .armed }
  | .armed, _ => await.try_consume_terminal { await with pc := .waiting, timer := .outstanding }
  | .waiting, _ =>
      match await.timer with
      | .completed ec => await.try_consume_terminal (await.resumed ec)
      | _ => await
  | _, _ => await

-- request_stop, from any thread: the installed callback posts to the owner.
def request_stop : StopSource → Await Value
  | .caller =>
      if await.caller_stop.possible && !await.caller_stop.requested then
        { await with
          caller_stop := { await.caller_stop with requested := true }
          posted := if await.state.caller_stop_cb then await.posted + 1 else await.posted }
      else await
  | .runtime =>
      if await.runtime_stop.possible && !await.runtime_stop.requested then
        { await with
          runtime_stop := { await.runtime_stop with requested := true }
          posted := if await.state.runtime_stop_cb then await.posted + 1 else await.posted }
      else await

-- The reactions and the posted handlers hold the state weakly: it is there from the call of then to the end.
def locked : Bool :=
  match await.pc with
  | .done _ => false
  | _ => await.called

def await_callback_entry (value : Option (OwnedValue Value)) : Await Value :=
  if !await.locked || decide (await.state.status ≠ .pending) then await
  else
    match value with
    | some value => await.fulfilWith value
    | none => { await with converting := await.converting + 1 }

-- While JavaScript converts a text the owner thread runs no handler, and the coroutine does not go on.
def perform (await : Await Value) : AwaitEvent Value → Await Value
  | .stop source => await.request_stop source
  | .cancel =>
      if 0 < await.posted ∧ await.converting = 0 ∧ await.locked = true then
        { await with posted := await.posted - 1 }.apply_cancel_on_owner
      else await
  | .fulfil value => await.await_callback_entry (some value)
  | .reject => await.await_callback_entry none
  | .converted text =>
      if 0 < await.converting then
        { await with converting := await.converting - 1 }.rejectWith (error_from_js_value text)
      else await
  | .expire =>
      if 0 < await.timeout ∧ await.timer = .outstanding then { await with timer := .completed .success } else await
  | .step answer => if await.converting = 0 then await.await_value answer else await

end Await

end machine

end Vacps.Native
