import ProtoActor.Actor.ActorContext
import Mathlib.Data.List.Count

/-!
# The lifecycle of an actor context

What a context that has begun to stop (`stateStopping` or `stateStopped`, `Down`) does with the
system messages that still reach it.

* `invokeSystemMessage_down`: every system message other than `Restart` keeps it down, brings
  up no new actor, and finishes the stop at most once (`finalizations` does not grow), so
  `processSystemMessages_down` holds over every run without a `Restart`.
* `handleRestart_of_childless`: `handleRestart` stores `stateRestarting` unconditionally, unlike
  `handleStop` and `handleWatch`, which both test for `stateStopping`; a childless stopping or
  stopped context that receives `Restart` is incarnated again and is alive.
  `restart_after_stop_reincarnates` runs it on a fresh child: `Stop`, `Restart`, `Stop` unregister
  the context twice and bring up a second actor in between.
* `finalizeStop_terminated_count`: `finalizeStop` sends `Terminated` once to each watcher and
  once more to the parent, so a parent that watches its child hears of its end twice
  (`watching_parent_notified_twice`); the router process skips the parent among its watchers.
-/

namespace ProtoActor.Actor

namespace ActorContext

variable {μ : Type} (sup : Supervision μ)

/-- `state >= stateStopping`: the context has begun to stop. -/
def Down (c : ActorContext μ) : Prop :=
  LifecycleState.stopping.toInt32 ≤ c.state.toInt32

instance (c : ActorContext μ) : Decidable c.Down :=
  inferInstanceAs (Decidable (_ ≤ _))

theorem down_iff {c : ActorContext μ} : c.Down ↔ c.state = .stopping ∨ c.state = .stopped := by
  unfold Down
  cases c.state <;> simp [LifecycleState.toInt32]

/-! ### The handlers on a down context -/

theorem handleStop_of_down {c : ActorContext μ} (hd : c.Down) : c.handleStop = c := by
  simp [handleStop, show LifecycleState.stopping.toInt32 ≤ c.state.toInt32 from hd]

theorem handleWatch_of_down {c : ActorContext μ} (hd : c.Down) (watcher : PID) :
    c.handleWatch watcher = c.sendSystemMessage watcher (.terminated c.self) := by
  simp only [handleWatch, show LifecycleState.stopping.toInt32 ≤ c.state.toInt32 from hd,
    if_true]

/-- `c'` differs from `c` only by the system messages it has sent since. -/
def OnlySends (c c' : ActorContext μ) : Prop :=
  c'.state = c.state ∧ ∃ new, c'.effects = c.effects ++ new ∧ ∀ e ∈ new, ∃ pid m, e = .send pid m

theorem OnlySends.trans {c₁ c₂ c₃ : ActorContext μ} (h₁ : OnlySends c₁ c₂) (h₂ : OnlySends c₂ c₃) :
    OnlySends c₁ c₃ := by
  obtain ⟨hs₁, new₁, he₁, hn₁⟩ := h₁
  obtain ⟨hs₂, new₂, he₂, hn₂⟩ := h₂
  refine ⟨hs₂.trans hs₁, new₁ ++ new₂, by rw [he₂, he₁, List.append_assoc], ?_⟩
  intro e he
  rcases List.mem_append.mp he with h | h
  · exact hn₁ e h
  · exact hn₂ e h

theorem ensureExtras_onlySends (c : ActorContext μ) : OnlySends c c.ensureExtras :=
  ⟨rfl, [], by simp [ensureExtras, withExtras], by simp⟩

theorem sendToAll_onlySends (c : ActorContext μ) (pids : List PID) (m : SystemMessage μ) :
    OnlySends c (c.sendToAll pids m) :=
  ⟨by rw [sendToAll_eq], _, by rw [sendToAll_eq], by simp⟩

theorem sendSystemMessage_onlySends (c : ActorContext μ) (pid : PID) (m : SystemMessage μ) :
    OnlySends c (c.sendSystemMessage pid m) :=
  ⟨rfl, [.send pid m], rfl, by simp⟩

theorem applyChildAction_onlySends (c : ActorContext μ) (a : ChildAction) :
    OnlySends c (c.applyChildAction a) := by
  cases a <;> exact sendToAll_onlySends c _ _

/-- `handleFailure` only sends: to children, or (escalating) to itself and its parent. -/
theorem handleFailure_onlySends (c : ActorContext μ) (who : PID) (reason : μ) :
    OnlySends c (c.handleFailure sup who reason) := by
  unfold handleFailure
  split
  · exact applyChildAction_onlySends c _
  · unfold escalateFailure
    dsimp only
    have h₁ := (ensureExtras_onlySends c).trans
      (sendSystemMessage_onlySends c.ensureExtras c.ensureExtras.self .suspendMailbox)
    split
    · exact h₁.trans (applyChildAction_onlySends _ _)
    · exact h₁.trans (sendSystemMessage_onlySends _ _ _)

/-! ### The child under test -/

/-- The parent of the actor under test. -/
def parentPID : PID :=
  ⟨"nonhost", "parent", 0⟩

/-- The actor under test, a child of `parentPID`. -/
def childPID : PID :=
  ⟨"nonhost", "parent/child", 0⟩

/-- `childPID` just after it was spawned: alive, with no extras and no effects yet. -/
def freshChild : ActorContext Unit :=
  ⟨childPID, some parentPID, .alive, none, []⟩

/-- A one-for-one strategy that restarts every failing child. -/
def restartSupervision : Supervision Unit :=
  ⟨fun who _ => .children (.restartChildren [who]), fun who _ => .restartChildren [who]⟩

section Counting

variable [DecidableEq μ]

/-- The `finalizeStop` runs a context has had, plus the one a stopping context still owes. -/
def finalizations (c : ActorContext μ) : Nat :=
  c.effects.count .unregister + if c.state = .stopping then 1 else 0

/-- A list of sends holds no effect that is not a send. -/
theorem count_of_sends {new : List (Effect μ)} (h : ∀ e ∈ new, ∃ pid m, e = .send pid m)
    (e : Effect μ) (he : ∀ pid m, e ≠ .send pid m) : new.count e = 0 := by
  rw [List.count_eq_zero]
  intro hmem
  obtain ⟨pid, m, rfl⟩ := h e hmem
  exact he pid m rfl

/-- A list of effects none of which is `e` counts no `e`. -/
theorem count_map_of_ne {α : Type} (l : List α) (f : α → Effect μ) (e : Effect μ)
    (h : ∀ x, f x ≠ e) : (l.map f).count e = 0 := by
  rw [List.count_eq_zero]
  simp only [List.mem_map, not_exists, not_and]
  exact fun x _ => h x

/-- `Terminated` on a down context: forget the child, forward the message, and finish a pending
stop once no child is left. -/
theorem handleTerminated_down {c : ActorContext μ} (hd : c.Down) (who : PID) :
    (c.handleTerminated who).Down ∧
    (c.handleTerminated who).effects.count .incarnate = c.effects.count .incarnate ∧
    (c.handleTerminated who).finalizations ≤ c.finalizations := by
  set c₁ : ActorContext μ :=
    ({ c with extras := c.extras.map (ContextExtras.removeChild · who) }).invokeUserMessage
      (.terminated who) with hc₁
  have hdef : c.handleTerminated who = c₁.tryRestartOrTerminate := rfl
  have hs₁ : c₁.state = c.state := by simp [hc₁]
  -- forwarding the message adds a `receive` and nothing else
  have hcount₁ : ∀ e : Effect μ, (∀ m, e ≠ .receive m) →
      c₁.effects.count e = c.effects.count e := by
    intro e he
    simp only [hc₁, invokeUserMessage_eq, List.count_append]
    split
    · simp
    · simp [(he _).symm]
  have hinc := hcount₁ .incarnate (by simp)
  have hunr := hcount₁ .unregister (by simp)
  rw [hdef]
  rcases down_iff.mp hd with hst | hst
  · cases hch : c₁.hasChildren
    · -- no child left: the pending stop is finished now
      rw [tryRestartOrTerminate_of_stopping hch (hs₁.trans hst), finalizeStop_eq]
      refine ⟨by simp [Down, LifecycleState.toInt32], ?_, ?_⟩
      · simp [emit, hinc, hs₁, hst, count_map_of_ne]
      · simp [finalizations, emit, hunr, hs₁, hst, count_map_of_ne]
    · rw [tryRestartOrTerminate_of_hasChildren hch]
      exact ⟨by simpa [Down, hs₁] using hd, hinc, by simp [finalizations, hs₁, hunr]⟩
  · rw [tryRestartOrTerminate_of_stopped (hs₁.trans hst)]
    exact ⟨by simpa [Down, hs₁] using hd, hinc, by simp [finalizations, hs₁, hunr]⟩

/-- A step that appends one effect which is neither an incarnation nor an unregistration. -/
theorem emit_down {c : ActorContext μ} (hd : c.Down) {e : Effect μ} (hi : e ≠ .incarnate)
    (hu : e ≠ .unregister) :
    (c.emit e).Down ∧ (c.emit e).effects.count .incarnate = c.effects.count .incarnate ∧
    (c.emit e).finalizations ≤ c.finalizations := by
  refine ⟨hd, ?_, ?_⟩
  · simp [emit, hi]
  · simp only [finalizations, emit, List.count_append, List.count_singleton, beq_iff_eq, hu,
      if_false, Nat.add_zero]
    exact Nat.le_refl _

/-- **One step of a down context.** A system message other than `Restart` keeps it down, appends
no incarnation, and does not raise `finalizations`. -/
theorem invokeSystemMessage_down {c : ActorContext μ} (hd : c.Down) {m : SystemMessage μ}
    (hm : m ≠ .restart) :
    (c.invokeSystemMessage sup m).Down ∧
    (c.invokeSystemMessage sup m).effects.count .incarnate = c.effects.count .incarnate ∧
    (c.invokeSystemMessage sup m).finalizations ≤ c.finalizations := by
  cases m with
  | continuation message => exact emit_down hd (by simp) (by simp)
  | started =>
    rw [invokeSystemMessage, invokeUserMessage]
    split
    · exact ⟨hd, rfl, Nat.le_refl _⟩
    · exact emit_down hd (by simp) (by simp)
  | watch watcher =>
    rw [invokeSystemMessage, handleWatch_of_down hd]
    exact emit_down hd (by simp) (by simp)
  | unwatch watcher => exact ⟨hd, rfl, Nat.le_refl _⟩
  | stop => rw [invokeSystemMessage, handleStop_of_down hd]; exact ⟨hd, rfl, Nat.le_refl _⟩
  | terminated who => exact handleTerminated_down hd who
  | failure who reason =>
    obtain ⟨hs, new, he, hsend⟩ := handleFailure_onlySends sup c who reason
    simp only [invokeSystemMessage, Down, finalizations, hs, he, List.count_append,
      count_of_sends hsend .incarnate (by simp), count_of_sends hsend .unregister (by simp)]
    exact ⟨hd, rfl, Nat.le_refl _⟩
  | restart => exact absurd rfl hm
  | suspendMailbox => exact emit_down hd (by simp) (by simp)
  | resumeMailbox => exact emit_down hd (by simp) (by simp)

/-- **Lifecycle without `Restart`.** From a stopping or stopped context, any run of system
messages without a `Restart` leaves it stopping or stopped, never incarnates a new actor, and
runs `finalizeStop` at most once (never, if it was already stopped). -/
theorem processSystemMessages_down {c : ActorContext μ} (hd : c.Down)
    (ms : List (SystemMessage μ)) (hms : SystemMessage.restart ∉ ms) :
    (c.processSystemMessages sup ms).Down ∧
    (c.processSystemMessages sup ms).effects.count .incarnate = c.effects.count .incarnate ∧
    (c.processSystemMessages sup ms).effects.count .unregister ≤
      c.effects.count .unregister + if c.state = .stopping then 1 else 0 := by
  -- the invariant carried along the run: down, no new incarnation, `finalizations` bounded
  suffices h : (c.processSystemMessages sup ms).Down ∧
      (c.processSystemMessages sup ms).effects.count .incarnate = c.effects.count .incarnate ∧
      (c.processSystemMessages sup ms).finalizations ≤ c.finalizations by
    refine ⟨h.1, h.2.1, ?_⟩
    have := h.2.2
    simp only [finalizations] at this
    omega
  induction ms generalizing c with
  | nil => exact ⟨hd, rfl, Nat.le_refl _⟩
  | cons m ms ih =>
    have hm : m ≠ .restart := fun h => hms (h ▸ List.mem_cons_self)
    have hms' : SystemMessage.restart ∉ ms := fun h => hms (List.mem_cons_of_mem m h)
    obtain ⟨hd₁, hinc₁, hfin₁⟩ := invokeSystemMessage_down sup hd hm
    obtain ⟨hd₂, hinc₂, hfin₂⟩ := ih hd₁ hms'
    exact ⟨hd₂, hinc₂.trans hinc₁, Nat.le_trans hfin₂ hfin₁⟩

/-- `freshChild` after a `Stop`: stopped, unregistered once. -/
def stoppedChild : ActorContext Unit :=
  freshChild.processSystemMessages restartSupervision [.stop]

theorem processSystemMessages_down_stoppedChild :
    stoppedChild.Down ∧ (SystemMessage.restart : SystemMessage Unit) ∉ [.watch parentPID, .stop] ∧
      (stoppedChild.processSystemMessages restartSupervision [.watch parentPID, .stop]).Down ∧
      (stoppedChild.processSystemMessages restartSupervision
          [.watch parentPID, .stop]).effects.count .incarnate =
        stoppedChild.effects.count .incarnate ∧
      (stoppedChild.processSystemMessages restartSupervision
          [.watch parentPID, .stop]).effects.count .unregister ≤
        stoppedChild.effects.count .unregister + if stoppedChild.state = .stopping then 1 else 0 := by
  have hd : stoppedChild.Down := by decide
  have hms : (SystemMessage.restart : SystemMessage Unit) ∉ [.watch parentPID, .stop] := by decide
  exact ⟨hd, hms, processSystemMessages_down restartSupervision hd _ hms⟩

/-! ### `Restart` after `Stop` -/

/-- **`Restart` brings any childless context back to life.** `handleRestart` stores
`stateRestarting` without looking at the current state, so a stopping or stopped context that
receives `Restart` incarnates a new actor and ends alive. -/
theorem handleRestart_of_childless {c : ActorContext μ} (hch : c.hasChildren = false) :
    c.handleRestart.state = .alive ∧
    c.handleRestart.effects.count .incarnate = c.effects.count .incarnate + 1 := by
  -- `stopAllChildren` has no child to stop, so the context is still childless and restarting
  set c₁ := ((c.setState .restarting).invokeUserMessage .restarting).stopAllChildren with hc₁
  have hch₁ : c₁.hasChildren = false := by
    rw [hc₁, stopAllChildren]
    split <;> simp_all [hasChildren, setState]
  have hs₁ : c₁.state = .restarting := by
    rw [hc₁, stopAllChildren]
    split <;> simp [setState]
  have hinc₁ : c₁.effects.count .incarnate = c.effects.count .incarnate := by
    rw [hc₁, stopAllChildren]
    split <;> simp [setState, count_map_of_ne]
  have hdef : c.handleRestart = c₁.tryRestartOrTerminate := rfl
  rw [hdef, tryRestartOrTerminate_of_restarting hch₁ hs₁, restart_eq]
  refine ⟨rfl, ?_⟩
  simp [emit, hinc₁, count_map_of_ne]

/-- `finalizeStop` sends `Terminated` to `w` once for each time `w` is among the watchers, and
once more if `w` is the parent. -/
theorem finalizeStop_terminated_count (c : ActorContext μ) (w : PID) :
    c.finalizeStop.effects.count (.send w (.terminated c.self)) =
      c.effects.count (.send w (.terminated c.self)) +
        ((c.extras.map (·.watchers.pids)).getD []).count w +
          if c.parent = some w then 1 else 0 := by
  have hinj : Function.Injective fun p : PID => (Effect.send p (.terminated c.self) : Effect μ) :=
    fun p q h => by simpa using h
  rw [finalizeStop_eq]
  -- the `Stopped` handed to the actor is not a send
  have hstopped : (if c.state = .stopped then [] else [Effect.receive UserMessage.stopped]).count
      (.send w (.terminated c.self) : Effect μ) = 0 := by
    split <;> simp
  cases hp : c.parent <;>
    simp [List.count_cons, List.count_map_of_injective _ _ hinj, hstopped, Nat.add_assoc]

end Counting

/-! ### The failing runs -/

/-- `Stop` then `Restart`: the child stops (and is unregistered), then `Restart` makes it alive
with a second actor, and another `Stop` runs `finalizeStop` a second time. -/
theorem restart_after_stop_reincarnates :
    (freshChild.processSystemMessages restartSupervision [.stop]).state = .stopped ∧
    (freshChild.processSystemMessages restartSupervision [.stop, .restart]).state = .alive ∧
    (freshChild.processSystemMessages restartSupervision [.stop, .restart]).effects.count
      .incarnate = 1 ∧
    (freshChild.processSystemMessages restartSupervision [.stop, .restart, .stop]).effects.count
      .unregister = 2 := by
  -- the `Stop` leaves the child stopped and childless, and `Restart` revives it all the same
  have hchildless : stoppedChild.hasChildren = false := by decide
  obtain ⟨halive, hincarnate⟩ := handleRestart_of_childless hchildless
  have hrestart : freshChild.processSystemMessages restartSupervision [.stop, .restart] =
      stoppedChild.handleRestart := rfl
  refine ⟨by decide, by rw [hrestart, halive], by rw [hrestart, hincarnate]; decide, by decide⟩

/-- A parent that watches its child receives `Terminated` for it twice: once as a watcher and
once as the parent. -/
theorem watching_parent_notified_twice :
    (freshChild.processSystemMessages restartSupervision [.watch parentPID, .stop]).effects.count
      (.send parentPID (.terminated childPID)) = 2 := by
  -- the `Watch` adds the parent to the watchers, and the `Stop` of the childless child finalizes
  set stopping := (((freshChild.handleWatch parentPID).setState .stopping).invokeUserMessage
    .stopping).stopAllChildren.emit .cancelReceiveTimeout
  have hrun : freshChild.processSystemMessages restartSupervision [.watch parentPID, .stop] =
      stopping.finalizeStop := rfl
  rw [hrun]
  -- not sent before, then once as a watcher and once as the parent
  exact (finalizeStop_terminated_count stopping parentPID).trans (by decide)

end ActorContext

end ProtoActor.Actor
