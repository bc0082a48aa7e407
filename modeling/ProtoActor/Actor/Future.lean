import ProtoActor.Actor.Pid
import ProtoActor.Transition.Run

/-!
# Futures

`actor/future.go`: a `futureProcess` is a registered process whose first reply completes the
future.  Its state is the `Future` record (`done`, `result`, `err`, the pipe targets and the
registered completions) together with what it has done to the outside world, in order.

The calls that reach a future are the operations `FutureOp`, each one run to its end:

* `SendUserMessage` stores the unwrapped reply (`ErrDeadLetter` for a `DeadLetterResponse`)
  in `result`/`err` without the lock, then calls `Stop`;
* `SendSystemMessage` stores the message in `result`, then calls `Stop`;
* the timer callback (`NewFuture`) tests `done` under the lock, sets `err = ErrTimeout`, then
  calls `Stop`;
* `Stop` returns at once when `done`; otherwise it sets `done`, stops the timer, unregisters the
  process, sends the outcome to every pipe target and runs every completion;
* `PipeTo` adds targets, and sends at once when `done`;
* `continueWith` runs the completion at once when `done`, and registers it otherwise.

A completion is user code; the model records which one ran and with which pair.
-/

namespace ProtoActor.Actor

/-- `ErrTimeout` and `ErrDeadLetter`. -/
inductive FutureError
  | timeout
  | deadLetter
  deriving DecidableEq, Repr

/-- A reply after `UnwrapEnvelope`: a `DeadLetterResponse`, or any other message. -/
inductive Reply (α : Type)
  | deadLetterResponse
  | message (m : α)
  deriving DecidableEq, Repr

/-- The value `sendToPipes` sends and `Result()` reports: `err` if it is not nil, else
`result` (`none` is a nil result). -/
inductive Outcome (α : Type)
  | error (e : FutureError)
  | result (r : Option α)
  deriving DecidableEq, Repr

/-- What a future does, in order. -/
inductive FutureEffect (α κ : Type)
  | pipe (target : PID) (value : Outcome α)
  | complete (k : κ) (result : Option α) (err : Option FutureError)
  | stopTimer
  | unregister
  | signal
  deriving DecidableEq, Repr

/-- The calls that reach one future. -/
inductive FutureOp (α κ : Type)
  | sendUserMessage (message : Reply α)
  | sendSystemMessage (message : α)
  | timeout
  | stop
  | pipeTo (pids : List PID)
  | continueWith (k : κ)
  deriving DecidableEq, Repr

/-- `Future`, with the effects it has had. -/
structure Future (α κ : Type) where
  done : Bool
  result : Option α
  err : Option FutureError
  pipes : List PID
  completions : List κ
  effects : List (FutureEffect α κ)

namespace Future

variable {α κ : Type}

/-- The future `NewFuture` returns: nothing received, nothing registered. -/
def new : Future α κ :=
  ⟨false, none, none, [], [], []⟩

/-- What `Result()` returns once `done`, and what `sendToPipes` sends: `err` if set, else
`result`. -/
def outcome (f : Future α κ) : Outcome α :=
  match f.err with
  | some e => .error e
  | none => .result f.result

/-- Record an effect. -/
def emit (f : Future α κ) (e : FutureEffect α κ) : Future α κ :=
  { f with effects := f.effects ++ [e] }

/-- `sendToPipes`: the outcome to every pipe target, in order, then forget the targets. -/
def sendToPipes (f : Future α κ) : Future α κ :=
  { f with
    pipes := []
    effects := f.effects ++ f.pipes.map fun pid => .pipe pid f.outcome }

/-- `runCompletions`: every completion with `(result, err)`, in order, then forget them. -/
def runCompletions (f : Future α κ) : Future α κ :=
  { f with
    completions := []
    effects := f.effects ++ f.completions.map fun k => .complete k f.result f.err }

/-- `futureProcess.Stop`: only the first call does anything. -/
def stop (f : Future α κ) : Future α κ :=
  if f.done then f
  else ((({ f with done := true }.emit .stopTimer).emit .unregister).sendToPipes.runCompletions).emit
    .signal

/-- `futureProcess.SendUserMessage`. -/
def sendUserMessage (f : Future α κ) : Reply α → Future α κ
  | .deadLetterResponse => { f with result := none, err := some .deadLetter }.stop
  | .message m => { f with result := some m }.stop

/-- `futureProcess.SendSystemMessage`. -/
def sendSystemMessage (f : Future α κ) (m : α) : Future α κ :=
  { f with result := some m }.stop

/-- The timer callback of `NewFuture`. -/
def timeout (f : Future α κ) : Future α κ :=
  if f.done then f else { f with err := some .timeout }.stop

/-- `PipeTo`. -/
def pipeTo (f : Future α κ) (pids : List PID) : Future α κ :=
  let f := { f with pipes := f.pipes ++ pids }
  if f.done then f.sendToPipes else f

/-- `continueWith`. -/
def continueWith (f : Future α κ) (k : κ) : Future α κ :=
  if f.done then f.emit (.complete k f.result f.err)
  else { f with completions := f.completions ++ [k] }

/-- One call reaching the future. -/
def step (f : Future α κ) : FutureOp α κ → Future α κ
  | .sendUserMessage m => f.sendUserMessage m
  | .sendSystemMessage m => f.sendSystemMessage m
  | .timeout => f.timeout
  | .stop => f.stop
  | .pipeTo pids => f.pipeTo pids
  | .continueWith k => f.continueWith k

/-- The future after the calls `ops`, in order. -/
def run (f : Future α κ) (ops : List (FutureOp α κ)) : Future α κ :=
  Transition.runFrom step f ops

/-! ### Each operation as a record update -/

@[simp] theorem stop_of_done {f : Future α κ} (h : f.done = true) : f.stop = f := by
  simp [stop, h]

theorem stop_of_not_done {f : Future α κ} (h : f.done = false) :
    f.stop = { f with
      done := true
      pipes := []
      completions := []
      effects := f.effects ++ [.stopTimer, .unregister] ++
        f.pipes.map (fun pid => .pipe pid f.outcome) ++
        f.completions.map (fun k => .complete k f.result f.err) ++ [.signal] } := by
  simp [stop, h, emit, sendToPipes, runCompletions, outcome]

end Future

end ProtoActor.Actor
