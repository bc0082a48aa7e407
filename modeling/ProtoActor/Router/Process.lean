import Mathlib.Data.List.Induction
import ProtoActor.Actor.PidSetSpec

/-!
# The router's process

`router/process.go`.  A router is two processes: the proxy `process`, registered under the
router's PID, which routes ordinary messages itself and forwards the others to the router actor,
and that actor.  The proxy handles `Watch`, `Unwatch` and `Stop` itself.  A `Watch` is handled
on the watcher's goroutine: it reads `stopping` atomically and, if the process is stopping,
answers `Terminated` at once; otherwise it takes `mu` and adds the watcher.  `Stop` and `Poison`
swap `stopping` to one (a second call returns at once), wait for the router actor to stop, remove
the PID from the registry and send the process a `Stop` message.  Every `Stop` message, that one
or one another goroutine sends to the router's PID (its parent's `stopAllChildren`), takes `mu`
and sends `Terminated` to each watcher but the parent, and then to the parent unless it is nil,
as a router spawned from the root context has it.  Each of these sends goes through
`ProcessRegistry.Get`, and is skipped when `Get` does not resolve the PID: the step that sends
is given what `Get` resolves at that moment.

The load of `stopping`, each section under `mu` and the swap are one step each; the wait for the
router actor and the removal are one step with the handling of the `Stop` message they end in.
The process keeps the `Terminated` messages it sent, to whom and in order, as a log.  The other
system messages, forwarded to the router actor, are left out.

* `stop_notifies_each_once`: the handling of a `Stop` message sends exactly one `Terminated` to
  each watcher and to the parent that `Get` resolves, also when the parent watches, and none to
  anyone else.
* `watch_racing_stop_is_lost`: a `Watch` that reads `stopping` before the swap and takes `mu`
  after the stop's own `Stop` message registers its watcher with a process whose stop is over:
  the watcher gets no `Terminated` unless it is the parent, until another goroutine sends the
  process a `Stop` message or it watches once more.
-/

namespace ProtoActor.Router

open ProtoActor.Actor ProtoActor.Transition

/-- Where the stop of the process is. -/
inductive StopPc
  /-- No `Stop` or `Poison` has swapped `stopping`. -/
  | running
  /-- Swapped; waiting for the router actor to stop. -/
  | stopping
  /-- The stop's own `Stop` message was handled. -/
  | stopped
  deriving DecidableEq, Repr

/-- The proxy `process`: its `parent`, `stopping` and `watchers`; the watchers whose `Watch` read
`stopping` as zero and waits for `mu`; where its stop is; and the `Terminated` messages it sent,
to whom, in order. -/
structure RouterProcess where
  parent : Option PID
  stopping : Bool
  watchers : PIDSet
  waiting : List PID
  stopPc : StopPc
  terminated : List PID

/-- The steps of the goroutines that use the process.  `resolved` and `resolves` are what
`ProcessRegistry.Get` resolves when the step sends. -/
inductive ProcessEvent
  /-- A `Watch` from `watcher`: `atomic.LoadInt32(&ref.stopping)`, and the `Terminated` of a
  stopping process. -/
  | watch (watcher : PID) (resolved : Bool)
  /-- That `Watch` under `mu`: `ref.watchers.Add`. -/
  | addWatcher (watcher : PID)
  /-- An `Unwatch` from `watcher`, under `mu`. -/
  | unwatch (watcher : PID)
  /-- `Stop` or `Poison`: `atomic.SwapInt32(&ref.stopping, 1)`. -/
  | stop
  /-- The rest of the stop: the router actor has stopped, the PID is removed, and the `Stop`
  message it sends is handled. -/
  | stopped (resolves : PID → Bool)
  /-- A `Stop` message another goroutine sent to the router's PID. -/
  | stopMessage (resolves : PID → Bool)

/-- A step that may send `w` a `Terminated` once the stop is over: a new `Watch` from `w`, or a
`Stop` message from another goroutine. -/
def ProcessEvent.mayNotify (w : PID) : ProcessEvent → Bool
  | .watch watcher _ => watcher == w
  | .stopMessage _ => true
  | _ => false

namespace RouterProcess

/-- The process as `spawn` leaves it. -/
def spawn (parent : Option PID) : RouterProcess :=
  ⟨parent, false, PIDSet.empty, [], .running, []⟩

/-- The handling of a `Stop` message: `Terminated` to each watcher that is not the parent, then
to the parent if there is one, each if `Get` resolves it. -/
def handleStop (p : RouterProcess) (resolves : PID → Bool) : RouterProcess :=
  { p with
    terminated := p.terminated ++
      p.watchers.pids.filter (fun other => some other != p.parent && resolves other) ++
      (p.parent.filter resolves).toList }

/-- One step. -/
def step (p : RouterProcess) : ProcessEvent → RouterProcess
  | .watch watcher resolved =>
    -- a stopping process answers at once
    if p.stopping then
      if resolved then { p with terminated := p.terminated ++ [watcher] } else p
    else { p with waiting := p.waiting ++ [watcher] }
  | .addWatcher watcher =>
    if watcher ∈ p.waiting then
      { p with waiting := p.waiting.erase watcher, watchers := p.watchers.add watcher }
    else p
  | .unwatch watcher => { p with watchers := (p.watchers.remove watcher).1 }
  | .stop => if p.stopping then p else { p with stopping := true, stopPc := .stopping }
  | .stopped resolves =>
    if p.stopPc = .stopping then { p.handleStop resolves with stopPc := .stopped } else p
  | .stopMessage resolves => p.handleStop resolves

/-- The process after the steps `es`. -/
def run (parent : Option PID) (es : List ProcessEvent) : RouterProcess :=
  runFrom step (spawn parent) es

theorem run_append (parent : Option PID) (es es' : List ProcessEvent) :
    run parent (es ++ es') = runFrom step (run parent es) es' :=
  runFrom_append _ _ _ _

theorem parent_step (p : RouterProcess) (e : ProcessEvent) : (p.step e).parent = p.parent := by
  cases e <;> simp only [step, handleStop] <;> split_ifs <;> rfl

theorem parent_run (parent : Option PID) (es : List ProcessEvent) : (run parent es).parent = parent :=
  runFrom_induction (P := fun p : RouterProcess => p.parent = parent)
    (fun p e h => (parent_step p e).trans h) rfl es

/-! ### The invariant -/

/-- What every run keeps: the watchers are a valid `PIDSet`, and `stopping` is set exactly once
the stop has begun. -/
structure Inv (p : RouterProcess) : Prop where
  valid : p.watchers.Valid
  stopping_iff : p.stopping = true ↔ p.stopPc ≠ .running

/-- **Step lemma.** -/
theorem Inv.step {p : RouterProcess} (h : Inv p) (e : ProcessEvent) : Inv (p.step e) := by
  cases e with
  | watch watcher resolved =>
    simp only [RouterProcess.step]
    split_ifs
    · exact ⟨h.valid, h.stopping_iff⟩
    · exact h
    · exact ⟨h.valid, h.stopping_iff⟩
  | addWatcher watcher =>
    simp only [RouterProcess.step]
    split_ifs
    · exact ⟨h.valid.add watcher, h.stopping_iff⟩
    · exact h
  | unwatch watcher => exact ⟨h.valid.remove watcher, h.stopping_iff⟩
  | stop =>
    simp only [RouterProcess.step]
    split_ifs
    · exact h
    · -- the swap begins the stop
      exact ⟨h.valid, by simp⟩
  | stopped resolves =>
    simp only [RouterProcess.step]
    split_ifs with hpc
    · have hs : p.stopping = true := h.stopping_iff.mpr (by rw [hpc]; decide)
      exact ⟨h.valid, by simp [handleStop, hs]⟩
    · exact h
  | stopMessage resolves => exact ⟨h.valid, h.stopping_iff⟩

/-- **Run lemma.** -/
theorem inv_run (parent : Option PID) (es : List ProcessEvent) : Inv (run parent es) :=
  runFrom_induction (fun _ e h => h.step e) ⟨PIDSet.valid_empty, by simp [spawn]⟩ es

/-! ### The notification -/

/-- The watchers are distinct PIDs. -/
theorem nodup_watchers {p : RouterProcess} (h : Inv p) : p.watchers.pids.Nodup :=
  h.valid.nodup_keys.of_map _

/-- The parent is notified once if there is one and `Get` resolves it. -/
theorem count_parent_filter (parent : Option PID) (resolves : PID → Bool) (w : PID) :
    (parent.filter resolves).toList.count w =
      if parent = some w ∧ resolves w = true then 1 else 0 := by
  cases parent with
  | none => simp
  | some q =>
    by_cases hq : q = w
    · subst hq
      cases hr : resolves q <;> simp [Option.filter, hr]
    · have hne : ¬(some q = some w ∧ resolves w = true) := fun h => hq (Option.some.inj h.1)
      rw [if_neg hne]
      cases hr : resolves q <;> simp [Option.filter, hr, hq]

/-- The `Terminated` messages the handling of a `Stop` message sends to `w`: one if `Get`
resolves it and it watches or is the parent. -/
theorem count_handleStop {p : RouterProcess} (h : p.watchers.pids.Nodup) (resolves : PID → Bool)
    (w : PID) :
    (p.handleStop resolves).terminated.count w = p.terminated.count w +
      if resolves w = true ∧ (w ∈ p.watchers.pids ∨ p.parent = some w) then 1 else 0 := by
  -- the watchers but the parent each appear once in the filtered slice
  have hfilter : (p.watchers.pids.filter
      (fun other => some other != p.parent && resolves other)).count w =
      if w ∈ p.watchers.pids ∧ p.parent ≠ some w ∧ resolves w = true then 1 else 0 := by
    split_ifs with hw
    · refine List.count_eq_one_of_mem (h.filter _) (List.mem_filter.mpr ⟨hw.1, ?_⟩)
      simp [Ne.symm hw.2.1, hw.2.2]
    · refine List.count_eq_zero.mpr fun hmem => hw ?_
      obtain ⟨hmem, hsel⟩ := List.mem_filter.mp hmem
      simp only [Bool.and_eq_true, bne_iff_ne, ne_eq] at hsel
      exact ⟨hmem, fun hp => hsel.1 hp.symm, hsel.2⟩
  simp only [handleStop]
  rw [List.count_append, List.count_append, hfilter, count_parent_filter]
  by_cases hpw : p.parent = some w
  · simp [hpw]
  · by_cases hr : resolves w = true <;> by_cases hw : w ∈ p.watchers.pids <;> simp [hpw, hr, hw]

/-- **Each watcher once, the parent once.** When the process handles a `Stop` message, the one its
own stop sends or one from another goroutine, it sends one `Terminated` to each watcher and to
the parent, if there is one, that `Get` resolves, and none to anyone else; a parent that watches
is not notified twice. -/
theorem stop_notifies_each_once (parent : Option PID) (pre : List ProcessEvent)
    (resolves : PID → Bool) (e : ProcessEvent)
    (he : e = .stopMessage resolves ∨ e = .stopped resolves ∧ (run parent pre).stopPc = .stopping)
    (w : PID) :
    (run parent (pre ++ [e])).terminated.count w =
      (run parent pre).terminated.count w +
        if resolves w = true ∧ (w ∈ (run parent pre).watchers.pids ∨ parent = some w) then 1
        else 0 := by
  have hcount := count_handleStop (nodup_watchers (inv_run parent pre)) resolves w
  rw [parent_run] at hcount
  rw [run_append, runFrom_cons, runFrom_nil]
  rcases he with rfl | ⟨rfl, hstop⟩
  · exact hcount
  · simp only [RouterProcess.step, hstop, if_true]
    exact hcount

/-- Two watchers before a stop. -/
def watchedThenStopping (a b : PID) : List ProcessEvent :=
  [.watch a true, .addWatcher a, .watch b true, .addWatcher b, .stop]

/-- The parent `$0` watches too, beside `$1`; `Get` resolves both, and the stop's own `Stop`
message is handled. -/
theorem stop_notifies_each_once_parentWatches :
    (ProcessEvent.stopped (fun _ => true) = .stopMessage (fun _ => true) ∨
      ProcessEvent.stopped (fun _ => true) = .stopped (fun _ => true) ∧
        (run (some ⟨"nonhost", "$0", 0⟩) (watchedThenStopping ⟨"nonhost", "$0", 0⟩
          ⟨"nonhost", "$1", 0⟩)).stopPc = .stopping) ∧
      (run (some ⟨"nonhost", "$0", 0⟩) (watchedThenStopping ⟨"nonhost", "$0", 0⟩
          ⟨"nonhost", "$1", 0⟩ ++ [.stopped (fun _ => true)])).terminated.count
          ⟨"nonhost", "$0", 0⟩ =
        (run (some ⟨"nonhost", "$0", 0⟩) (watchedThenStopping ⟨"nonhost", "$0", 0⟩
          ⟨"nonhost", "$1", 0⟩)).terminated.count ⟨"nonhost", "$0", 0⟩ +
          if (fun _ => true : PID → Bool) ⟨"nonhost", "$0", 0⟩ = true ∧
            (⟨"nonhost", "$0", 0⟩ ∈ (run (some ⟨"nonhost", "$0", 0⟩) (watchedThenStopping
              ⟨"nonhost", "$0", 0⟩ ⟨"nonhost", "$1", 0⟩)).watchers.pids ∨
            some ⟨"nonhost", "$0", 0⟩ = some (⟨"nonhost", "$0", 0⟩ : PID)) then 1 else 0 :=
  have he : ProcessEvent.stopped (fun _ => true) = .stopMessage (fun _ => true) ∨
      ProcessEvent.stopped (fun _ => true) = .stopped (fun _ => true) ∧
        (run (some ⟨"nonhost", "$0", 0⟩) (watchedThenStopping ⟨"nonhost", "$0", 0⟩
          ⟨"nonhost", "$1", 0⟩)).stopPc = .stopping :=
    .inr ⟨rfl, by decide⟩
  ⟨he, stop_notifies_each_once _ _ _ _ he _⟩

/-! ### After the stop -/

/-- Once its stop is over, the process sends `w` a `Terminated` only in answer to a new `Watch`
from it or to a `Stop` message from another goroutine. -/
theorem count_terminated_of_stopped (w : PID) (post : List ProcessEvent)
    (hpost : ∀ e ∈ post, e.mayNotify w = false) :
    ∀ p : RouterProcess, p.stopping = true → p.stopPc = .stopped →
      (runFrom step p post).terminated.count w = p.terminated.count w := by
  induction post with
  | nil => intro p _ _; rfl
  | cons e post ih =>
    intro p hs hpc
    rw [runFrom_cons]
    -- the step keeps the stop over and sends nothing to `w`
    have hstep : (p.step e).stopping = true ∧ (p.step e).stopPc = .stopped ∧
        (p.step e).terminated.count w = p.terminated.count w := by
      have he := hpost e List.mem_cons_self
      cases e with
      | watch watcher resolved =>
        have hw : watcher ≠ w := by simpa [ProcessEvent.mayNotify] using he
        cases resolved <;> simp [RouterProcess.step, hs, hpc, hw]
      | addWatcher watcher =>
        simp only [RouterProcess.step]
        split_ifs <;> exact ⟨hs, hpc, rfl⟩
      | unwatch watcher => exact ⟨hs, hpc, rfl⟩
      | stop => simp [RouterProcess.step, hs, hpc]
      | stopped resolves => simp [RouterProcess.step, hs, hpc]
      | stopMessage resolves => simp [ProcessEvent.mayNotify] at he
    obtain ⟨hs', hpc', hcount⟩ := hstep
    rw [ih (fun e he => hpost e (List.mem_cons_of_mem _ he)) _ hs' hpc', hcount]

/-- A `Watch` from `w` reads `stopping` before the stop's swap, and takes `mu` after the stop's own
`Stop` message, whose sends `Get` resolves as `resolves` says. -/
def racingWatch (w : PID) (resolves : PID → Bool) : List ProcessEvent :=
  [.watch w true, .stop, .stopped resolves, .addWatcher w]

theorem run_racingWatch (parent : Option PID) (w : PID) (resolves : PID → Bool) :
    run parent (racingWatch w resolves) =
      ⟨parent, true, PIDSet.empty.add w, [], .stopped, (parent.filter resolves).toList⟩ := by
  simp [run, racingWatch, runFrom, RouterProcess.step, spawn, handleStop, PIDSet.empty]

/-- **A `Watch` racing a stop is lost until another `Stop`.** When a `Watch` from `w` reads
`stopping` before the swap and takes `mu` after the stop's own `Stop` message, `w` is registered
as a watcher of a process whose stop is over: in every run that follows with no new `Watch` from
`w` and no `Stop` message from another goroutine, `w` gets no `Terminated` unless it is the
parent; a `Stop` message from another goroutine, such as its parent's `stopAllChildren`, sends
it one if `Get` resolves it. -/
theorem watch_racing_stop_is_lost (parent : Option PID) (w : PID) (resolves : PID → Bool)
    (post : List ProcessEvent) (hpost : ∀ e ∈ post, e.mayNotify w = false)
    (resolves' : PID → Bool) :
    (run parent (racingWatch w resolves)).watchers.contains w = true ∧
      (run parent (racingWatch w resolves)).stopPc = .stopped ∧
      (run parent (racingWatch w resolves ++ post)).terminated.count w =
        (if parent = some w ∧ resolves w = true then 1 else 0) ∧
      (run parent (racingWatch w resolves ++ [.stopMessage resolves'])).terminated.count w =
        (if parent = some w ∧ resolves w = true then 1 else 0) +
          if resolves' w = true then 1 else 0 := by
  have hrun := run_racingWatch parent w resolves
  have hpids : (PIDSet.empty.add w).pids = [w] := by
    simp [PIDSet.add, PIDSet.contains, PIDSet.empty]
  refine ⟨?_, by rw [hrun], ?_, ?_⟩
  · rw [hrun]
    simp [PIDSet.add, PIDSet.contains, PIDSet.empty]
  · rw [run_append, count_terminated_of_stopped w post hpost _ (by rw [hrun]) (by rw [hrun]), hrun,
      count_parent_filter]
  · -- the late watcher is among the watchers the `Stop` message notifies
    have hnodup := nodup_watchers (inv_run parent (racingWatch w resolves))
    rw [run_append, runFrom_cons, runFrom_nil]
    show ((run parent (racingWatch w resolves)).handleStop resolves').terminated.count w = _
    rw [count_handleStop hnodup, hrun, count_parent_filter, hpids]
    simp

/-- With the watcher `$1` of the parent `$0`, `Get` resolving every PID, and an `Unwatch` of
another PID after. -/
theorem watch_racing_stop_is_lost_unwatch :
    (∀ e ∈ [ProcessEvent.unwatch ⟨"nonhost", "$2", 0⟩], e.mayNotify ⟨"nonhost", "$1", 0⟩ = false) ∧
      (run (some ⟨"nonhost", "$0", 0⟩) (racingWatch ⟨"nonhost", "$1", 0⟩ fun _ => true)).watchers.contains
          ⟨"nonhost", "$1", 0⟩ = true ∧
        (run (some ⟨"nonhost", "$0", 0⟩) (racingWatch ⟨"nonhost", "$1", 0⟩ fun _ => true)).stopPc =
          .stopped ∧
        (run (some ⟨"nonhost", "$0", 0⟩) (racingWatch ⟨"nonhost", "$1", 0⟩ (fun _ => true) ++
            [.unwatch ⟨"nonhost", "$2", 0⟩])).terminated.count ⟨"nonhost", "$1", 0⟩ =
          (if some (⟨"nonhost", "$0", 0⟩ : PID) = some ⟨"nonhost", "$1", 0⟩ ∧
            (fun _ => true : PID → Bool) ⟨"nonhost", "$1", 0⟩ = true then 1 else 0) ∧
        (run (some ⟨"nonhost", "$0", 0⟩) (racingWatch ⟨"nonhost", "$1", 0⟩ (fun _ => true) ++
            [.stopMessage fun _ => true])).terminated.count ⟨"nonhost", "$1", 0⟩ =
          (if some (⟨"nonhost", "$0", 0⟩ : PID) = some ⟨"nonhost", "$1", 0⟩ ∧
            (fun _ => true : PID → Bool) ⟨"nonhost", "$1", 0⟩ = true then 1 else 0) +
            if (fun _ => true : PID → Bool) ⟨"nonhost", "$1", 0⟩ = true then 1 else 0 :=
  have hpost : ∀ e ∈ [ProcessEvent.unwatch ⟨"nonhost", "$2", 0⟩],
      e.mayNotify ⟨"nonhost", "$1", 0⟩ = false := by decide
  ⟨hpost, watch_racing_stop_is_lost _ _ _ _ hpost _⟩

end RouterProcess

end ProtoActor.Router
