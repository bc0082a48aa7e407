import ProtoActor.Actor.Pid
import ProtoActor.Transition.Run

/-!
# The actor context and its system messages

`actor/actor_context.go`: how an `actorContext` reacts to the system messages its mailbox hands
to `InvokeSystemMessage`.  The context is explicit state; everything it does to the outside world
is appended to `effects`, in program order:

* `incarnate`: `incarnateActor` called `props.producer` for a fresh actor;
* `receive m`: `InvokeUserMessage` handed `m` to the actor's `Receive` (it drops messages once the
  state is `stateStopped`);
* `send pid m`: `pid.sendSystemMessage(m)`;
* `unregister`: `ProcessRegistry.Remove(self)`, the first step of `finalizeStop`.

What the actor's own `Receive` does is user code; so is the continuation of a `continuation`
message.  A supervisor strategy (the actor itself when it is a `SupervisorStrategy`, else the
props' supervisor, and the default strategy for a root actor) decides from the failing child and
the reason with a user `Decider` and wall-clock restart statistics; its decision is the parameter
`Supervision`.  Receive timeouts, metrics and middleware chains do not take part in the lifecycle
and are left out.
-/

namespace ProtoActor.Actor

/-- `stateAlive`, `stateRestarting`, `stateStopping`, `stateStopped`. -/
inductive LifecycleState
  | alive
  | restarting
  | stopping
  | stopped
  deriving DecidableEq, Repr

/-- The `int32` value of each state (`iota` order); the source compares states by it. -/
def LifecycleState.toInt32 : LifecycleState → Nat
  | .alive => 0
  | .restarting => 1
  | .stopping => 2
  | .stopped => 3

/-- What the context hands to the actor's `Receive`: the lifecycle messages `startedMessage`,
`restartingMessage`, `stoppingMessage`, `stoppedMessage`, a forwarded `Terminated`, and ordinary
messages (from the stash). -/
inductive UserMessage (μ : Type)
  | started
  | restarting
  | stopping
  | stopped
  | terminated (who : PID)
  | user (m : μ)
  deriving DecidableEq, Repr

/-- The system messages of `actor/messages.go` that `InvokeSystemMessage` and the mailbox know.
A `Failure` carries the failing child and the reason (its restart statistics and message only
feed the strategy's decision). -/
inductive SystemMessage (μ : Type)
  | continuation (message : μ)
  | started
  | watch (watcher : PID)
  | unwatch (watcher : PID)
  | stop
  | terminated (who : PID)
  | failure (who : PID) (reason : μ)
  | restart
  | suspendMailbox
  | resumeMailbox
  deriving DecidableEq, Repr

/-- What the context does, in order. -/
inductive Effect (μ : Type)
  | incarnate
  | receive (m : UserMessage μ)
  | send (target : PID) (m : SystemMessage μ)
  | unregister
  | cancelReceiveTimeout
  | runContinuation (message : μ)
  | logUnknown
  deriving DecidableEq, Repr

/-- The calls a supervisor strategy makes on its children through the `Supervisor` interface. -/
inductive ChildAction
  | resumeChildren (pids : List PID)
  | restartChildren (pids : List PID)
  | stopChildren (pids : List PID)
  deriving DecidableEq, Repr

/-- A strategy's decision on a failure: act on children, or `EscalateFailure`. -/
inductive SupervisorDecision
  | children (action : ChildAction)
  | escalate
  deriving DecidableEq, Repr

/-- The supervisor strategies the context consults, as decisions on `(who, reason)`.  The
default strategy that handles a root actor's escalation (`handleRootFailure`) never escalates. -/
structure Supervision (μ : Type) where
  handleFailure : PID → μ → SupervisorDecision
  handleRootFailure : PID → μ → ChildAction

/-- `actorContextExtras`, the part created on demand by `ensureExtras`.  The stash is a
`linkedliststack`: its head is the top. -/
structure ContextExtras (μ : Type) where
  children : PIDSet
  watchers : PIDSet
  stash : List μ

namespace ContextExtras

variable {μ : Type}

/-- `actorContextExtras.removeChild`. -/
def removeChild (ex : ContextExtras μ) (pid : PID) : ContextExtras μ :=
  { ex with children := (ex.children.remove pid).1 }

/-- `actorContextExtras.watch`. -/
def watch (ex : ContextExtras μ) (watcher : PID) : ContextExtras μ :=
  { ex with watchers := ex.watchers.add watcher }

/-- `actorContextExtras.unwatch`. -/
def unwatch (ex : ContextExtras μ) (watcher : PID) : ContextExtras μ :=
  { ex with watchers := (ex.watchers.remove watcher).1 }

end ContextExtras

/-- `actorContext`, with the effects it has had so far. -/
structure ActorContext (μ : Type) where
  self : PID
  parent : Option PID
  state : LifecycleState
  extras : Option (ContextExtras μ)
  effects : List (Effect μ)

namespace ActorContext

variable {μ : Type} (sup : Supervision μ)

/-- Record an effect. -/
def emit (c : ActorContext μ) (e : Effect μ) : ActorContext μ :=
  { c with effects := c.effects ++ [e] }

/-- `atomic.StoreInt32(&ctx.state, s)`. -/
def setState (c : ActorContext μ) (s : LifecycleState) : ActorContext μ :=
  { c with state := s }

/-- `pid.sendSystemMessage(ctx.actorSystem, m)`. -/
def sendSystemMessage (c : ActorContext μ) (pid : PID) (m : SystemMessage μ) : ActorContext μ :=
  c.emit (.send pid m)

/-- Send the same system message to each PID of a list, in order. -/
def sendToAll (c : ActorContext μ) (pids : List PID) (m : SystemMessage μ) : ActorContext μ :=
  pids.foldl (fun c pid => c.sendSystemMessage pid m) c

/-- `newActorContextExtras`: no children, no watchers, an empty stash. -/
def newExtras : ContextExtras μ :=
  ⟨PIDSet.empty, PIDSet.empty, []⟩

/-- `ensureExtras().…`: update the extras, creating them on first use. -/
def withExtras (c : ActorContext μ) (f : ContextExtras μ → ContextExtras μ) : ActorContext μ :=
  { c with extras := some (f (c.extras.getD newExtras)) }

/-- `ensureExtras`. -/
def ensureExtras (c : ActorContext μ) : ActorContext μ :=
  c.withExtras id

/-- `InvokeUserMessage`: nothing once stopped, else the actor receives the message. -/
def invokeUserMessage (c : ActorContext μ) (m : UserMessage μ) : ActorContext μ :=
  if c.state = .stopped then c else c.emit (.receive m)

/-- `incarnateActor`: state alive, and a fresh actor from the props' producer. -/
def incarnateActor (c : ActorContext μ) : ActorContext μ :=
  (c.setState .alive).emit .incarnate

/-- `stopAllChildren`: `Stop` to every child, last to first. -/
def stopAllChildren (c : ActorContext μ) : ActorContext μ :=
  match c.extras with
  | none => c
  | some ex => c.sendToAll ex.children.pids.reverse .stop

/-- `restart`: a fresh actor, resume the mailbox, `Started`, then unstash everything. -/
def restart (c : ActorContext μ) : ActorContext μ :=
  let c := c.incarnateActor
  let c := c.sendSystemMessage c.self .resumeMailbox
  let c := c.invokeUserMessage .started
  match c.extras with
  | none => c
  | some ex =>
    ex.stash.foldl (fun c m => c.invokeUserMessage (.user m))
      { c with extras := some { ex with stash := [] } }

/-- `finalizeStop`: unregister, `Stopped`, `Terminated` to every watcher and to the parent, then
state stopped. -/
def finalizeStop (c : ActorContext μ) : ActorContext μ :=
  let c := c.emit .unregister
  let c := c.invokeUserMessage .stopped
  let c := match c.extras with
    | none => c
    | some ex => c.sendToAll ex.watchers.pids (.terminated c.self)
  let c := match c.parent with
    | none => c
    | some p => c.sendSystemMessage p (.terminated c.self)
  c.setState .stopped

/-- Whether the extras exist and hold a child (the guard of `tryRestartOrTerminate`). -/
def hasChildren (c : ActorContext μ) : Bool :=
  match c.extras with
  | none => false
  | some ex => !ex.children.isEmpty

/-- `tryRestartOrTerminate`: with no children left, finish a restart or a stop. -/
def tryRestartOrTerminate (c : ActorContext μ) : ActorContext μ :=
  if c.hasChildren then c
  else
    match c.state with
    | .restarting => (c.emit .cancelReceiveTimeout).restart
    | .stopping => (c.emit .cancelReceiveTimeout).finalizeStop
    | _ => c

/-- `handleWatch`: a stopping or stopped actor answers at once with `Terminated`. -/
def handleWatch (c : ActorContext μ) (watcher : PID) : ActorContext μ :=
  if c.state.toInt32 ≥ LifecycleState.stopping.toInt32 then
    c.sendSystemMessage watcher (.terminated c.self)
  else
    c.withExtras (·.watch watcher)

/-- `handleUnwatch`: nothing to do before the extras exist. -/
def handleUnwatch (c : ActorContext μ) (watcher : PID) : ActorContext μ :=
  { c with extras := c.extras.map (ContextExtras.unwatch · watcher) }

/-- `handleRestart`: stores `stateRestarting` whatever the current state. -/
def handleRestart (c : ActorContext μ) : ActorContext μ :=
  let c := c.setState .restarting
  let c := c.invokeUserMessage .restarting
  let c := c.stopAllChildren
  c.tryRestartOrTerminate

/-- `handleStop`: ignored when already stopping or stopped. -/
def handleStop (c : ActorContext μ) : ActorContext μ :=
  if c.state.toInt32 ≥ LifecycleState.stopping.toInt32 then c
  else
    let c := c.setState .stopping
    let c := c.invokeUserMessage .stopping
    let c := c.stopAllChildren
    c.tryRestartOrTerminate

/-- `handleTerminated`: forget the child, tell the actor, and maybe finish a restart or stop. -/
def handleTerminated (c : ActorContext μ) (who : PID) : ActorContext μ :=
  let c := { c with extras := c.extras.map (ContextExtras.removeChild · who) }
  let c := c.invokeUserMessage (.terminated who)
  c.tryRestartOrTerminate

/-- `ResumeChildren`, `RestartChildren`, `StopChildren`. -/
def applyChildAction (c : ActorContext μ) : ChildAction → ActorContext μ
  | .resumeChildren pids => c.sendToAll pids .resumeMailbox
  | .restartChildren pids => c.sendToAll pids .restart
  | .stopChildren pids => c.sendToAll pids .stop

/-- `EscalateFailure`: create the restart statistics (and so the extras), suspend the own
mailbox, and hand the failure to the parent, or to the default strategy for a root actor. -/
def escalateFailure (c : ActorContext μ) (reason : μ) : ActorContext μ :=
  let c := c.ensureExtras
  let c := c.sendSystemMessage c.self .suspendMailbox
  match c.parent with
  | none => c.applyChildAction (sup.handleRootFailure c.self reason)
  | some p => c.sendSystemMessage p (.failure c.self reason)

/-- `handleFailure`: the strategy decides. -/
def handleFailure (c : ActorContext μ) (who : PID) (reason : μ) : ActorContext μ :=
  match sup.handleFailure who reason with
  | .children action => c.applyChildAction action
  | .escalate => c.escalateFailure sup reason

/-- `InvokeSystemMessage`. -/
def invokeSystemMessage (c : ActorContext μ) : SystemMessage μ → ActorContext μ
  | .continuation message => c.emit (.runContinuation message)
  | .started => c.invokeUserMessage .started
  | .watch watcher => c.handleWatch watcher
  | .unwatch watcher => c.handleUnwatch watcher
  | .stop => c.handleStop
  | .terminated who => c.handleTerminated who
  | .failure who reason => c.handleFailure sup who reason
  | .restart => c.handleRestart
  | _ => c.emit .logUnknown

/-- The context after its mailbox has handed it the system messages `ms`, in order. -/
def processSystemMessages (c : ActorContext μ) (ms : List (SystemMessage μ)) : ActorContext μ :=
  Transition.runFrom (invokeSystemMessage sup) c ms

/-! ### Each operation as a record update -/

@[simp] theorem sendSystemMessage_eq (c : ActorContext μ) (pid : PID) (m : SystemMessage μ) :
    c.sendSystemMessage pid m = { c with effects := c.effects ++ [.send pid m] } := rfl

@[simp] theorem sendToAll_eq (c : ActorContext μ) (pids : List PID) (m : SystemMessage μ) :
    c.sendToAll pids m = { c with effects := c.effects ++ pids.map (fun pid => .send pid m) } := by
  induction pids generalizing c with
  | nil => simp [sendToAll]
  | cons pid pids ih =>
    simp only [sendToAll, List.foldl_cons] at ih ⊢
    rw [ih]
    simp

@[simp] theorem invokeUserMessage_eq (c : ActorContext μ) (m : UserMessage μ) :
    c.invokeUserMessage m =
      { c with effects := c.effects ++ if c.state = .stopped then [] else [.receive m] } := by
  unfold invokeUserMessage emit
  split <;> simp

/-- `finalizeStop` in one piece: what it sends, to whom, and the final state. -/
theorem finalizeStop_eq (c : ActorContext μ) :
    c.finalizeStop = { c with
      state := .stopped
      effects := c.effects ++ .unregister ::
        ((if c.state = .stopped then [] else [.receive .stopped]) ++
          ((c.extras.map (·.watchers.pids)).getD []).map (fun w => .send w (.terminated c.self)) ++
          c.parent.toList.map (fun p => .send p (.terminated c.self))) } := by
  obtain ⟨self, parent, state, extras, effects⟩ := c
  cases extras <;> cases parent <;> simp [finalizeStop, emit, setState]

/-- Unstashing hands every stashed message to the actor, top first. -/
theorem foldl_invokeUserMessage (c : ActorContext μ) (ms : List μ) :
    ms.foldl (fun c m => c.invokeUserMessage (.user m)) c =
      { c with effects := c.effects ++
          if c.state = .stopped then [] else ms.map (fun m => .receive (.user m)) } := by
  induction ms generalizing c with
  | nil => split <;> simp
  | cons m ms ih =>
    rw [List.foldl_cons, ih, invokeUserMessage_eq]
    split <;> simp_all

/-- `restart` in one piece: a fresh actor, the mailbox resumed, `Started`, the stash emptied. -/
theorem restart_eq (c : ActorContext μ) :
    c.restart = { c with
      state := .alive
      extras := c.extras.map fun ex => { ex with stash := [] }
      effects := c.effects ++ [.incarnate, .send c.self .resumeMailbox, .receive .started] ++
        ((c.extras.map (·.stash)).getD []).map (fun m => .receive (.user m)) } := by
  obtain ⟨self, parent, state, extras, effects⟩ := c
  cases extras with
  | none => simp [restart, incarnateActor, setState, emit]
  | some ex =>
    show List.foldl _ _ ex.stash = _
    rw [foldl_invokeUserMessage]
    simp [incarnateActor, setState, emit]

theorem tryRestartOrTerminate_of_hasChildren {c : ActorContext μ} (h : c.hasChildren = true) :
    c.tryRestartOrTerminate = c := by
  simp [tryRestartOrTerminate, h]

theorem tryRestartOrTerminate_of_stopping {c : ActorContext μ} (h : c.hasChildren = false)
    (hs : c.state = .stopping) :
    c.tryRestartOrTerminate = (c.emit .cancelReceiveTimeout).finalizeStop := by
  simp [tryRestartOrTerminate, h, hs]

theorem tryRestartOrTerminate_of_restarting {c : ActorContext μ} (h : c.hasChildren = false)
    (hs : c.state = .restarting) :
    c.tryRestartOrTerminate = (c.emit .cancelReceiveTimeout).restart := by
  simp [tryRestartOrTerminate, h, hs]

theorem tryRestartOrTerminate_of_stopped {c : ActorContext μ} (hs : c.state = .stopped) :
    c.tryRestartOrTerminate = c := by
  unfold tryRestartOrTerminate
  split <;> simp [hs]

end ActorContext

end ProtoActor.Actor
