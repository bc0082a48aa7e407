import Mathlib.Data.List.Induction
import ProtoActor.Transition.Run

/-!
# Repeating timers

`scheduler/timer.go`.  `startTimer` arms a `time.Timer` whose callback, each time the timer
fires, spins while `state` is `stateInit`, returns if it then reads `stateDone`, and otherwise
calls `fn` and re-arms the timer with `t.Reset(interval)`.  Once `time.AfterFunc` has returned,
`startTimer` stores `stateReady`; the `CancelFunc` it returns swaps in `stateDone` and, unless
the state was done already, stops the timer.  `SendRepeatedly` and `RequestRepeatedly` are
`startTimer` with a `Send` or a `Request` for `fn`.

Each atomic load of the spin loop, the plain read of `state` after it, the call of `fn`,
`t.Reset`, the store and the cancel is one step, and so is the runtime running the callback of an
armed timer.  A run is any interleaving of them; a step taken where its goroutine is not is one
that does nothing.

* `fn_called_after_store`: in every run `fn` is called only after the store, and while the
  timer is not armed: the spin loop does what its comment asks, and no two callbacks of one
  timer run at once (`callbackInv_run`).
* `cancel_calls_fn_at_most_once`: after a cancel, and with no store after it, `fn` is called at
  most once more, and only when the callback had already read a state other than `stateDone`:
  the cancel does not wait for a callback in that window.
-/

namespace ProtoActor.Scheduler

open ProtoActor.Transition

/-- `stateInit`, `stateReady` and `stateDone`. -/
inductive TimerState
  | stateInit
  | stateReady
  | stateDone
  deriving DecidableEq, Repr

/-- Where the callback of `time.AfterFunc` is. -/
inductive CallbackPc
  /-- Not running. -/
  | idle
  /-- In the loop on `atomic.LoadInt32(&state) == stateInit`. -/
  | spinning
  /-- Out of the loop, before `if state == stateDone`. -/
  | loaded
  /-- Past that test, before `fn()`. -/
  | checked
  /-- After `fn()`, before `t.Reset(interval)`. -/
  | called
  deriving DecidableEq, Repr

/-- What `startTimer` shares with its callback and its `CancelFunc`: `state`, whether the timer
`t` is armed, and where the callback is. -/
structure StartedTimer where
  state : TimerState
  armed : Bool
  pc : CallbackPc
  deriving DecidableEq, Repr

/-- The steps of the creator, the callback, the runtime and the canceller. -/
inductive TimerEvent
  /-- `atomic.StoreInt32(&state, stateReady)`. -/
  | store
  /-- The runtime runs the callback of the armed timer. -/
  | fire
  /-- One `atomic.LoadInt32(&state)` of the spin loop. -/
  | load
  /-- `if state == stateDone`. -/
  | check
  /-- `fn()`. -/
  | callFn
  /-- `t.Reset(interval)`. -/
  | reset
  /-- A call of the `CancelFunc`. -/
  | cancel
  deriving DecidableEq, Repr

namespace StartedTimer

/-- Just after `time.AfterFunc`: armed, with no callback running. -/
def startTimer : StartedTimer := ⟨.stateInit, true, .idle⟩

/-- One step; the flag says whether it called `fn`. -/
def step (t : StartedTimer) : TimerEvent → Bool × StartedTimer
  | .store => (false, { t with state := .stateReady })
  | .fire => (false, if t.armed then { t with armed := false, pc := .spinning } else t)
  -- the loop ends once the load reads a state other than `stateInit`
  | .load =>
    (false, if t.pc = .spinning ∧ t.state ≠ .stateInit then { t with pc := .loaded } else t)
  | .check =>
    (false, if t.pc = .loaded then
      { t with pc := if t.state = .stateDone then .idle else .checked } else t)
  | .callFn => if t.pc = .checked then (true, { t with pc := .called }) else (false, t)
  | .reset => (false, if t.pc = .called then { t with armed := true, pc := .idle } else t)
  -- `atomic.SwapInt32(&state, stateDone)`, then `t.Stop()` unless it was done
  | .cancel =>
    (false, if t.state ≠ .stateDone then { t with state := .stateDone, armed := false } else t)

/-- The timer after the steps `es`. -/
def run (es : List TimerEvent) : StartedTimer :=
  runFrom (fun t e => (t.step e).2) startTimer es

/-- The calls of `fn` the callback can still make once `state` is done: one, if it is past its
test. -/
def fnBudget (t : StartedTimer) : ℕ :=
  if t.pc = .checked then 1 else 0

/-! ### The callback -/

/-- What every run `es` keeps: the timer is armed only while no callback runs; a callback out of
its loop has read a state other than `stateInit`; and the state is ready, or a callback past its
test, only after the store. -/
structure CallbackInv (es : List TimerEvent) (t : StartedTimer) : Prop where
  idle_of_armed : t.armed = true → t.pc = .idle
  loaded : t.pc = .loaded → t.state ≠ .stateInit
  ready : t.state = .stateReady → TimerEvent.store ∈ es
  window : t.pc = .checked ∨ t.pc = .called → TimerEvent.store ∈ es

namespace CallbackInv

variable {es : List TimerEvent} {t : StartedTimer}

theorem mono (h : CallbackInv es t) (e : TimerEvent) : CallbackInv (es ++ [e]) t where
  idle_of_armed := h.idle_of_armed
  loaded := h.loaded
  ready hr := List.mem_append_left _ (h.ready hr)
  window hw := List.mem_append_left _ (h.window hw)

/-- A running callback: the timer is not armed. -/
theorem not_armed (h : CallbackInv es t) (hpc : t.pc ≠ .idle) : t.armed = false := by
  cases harmed : t.armed
  · rfl
  · exact absurd (h.idle_of_armed harmed) hpc

/-- **Step lemma.** Every step keeps the invariant, one step longer. -/
theorem step (h : CallbackInv es t) (e : TimerEvent) : CallbackInv (es ++ [e]) (t.step e).2 := by
  have hstored : TimerEvent.store ∈ es → TimerEvent.store ∈ es ++ [e] := List.mem_append_left _
  cases e with
  | store =>
    -- the state becomes ready with the store in the run
    have hin : TimerEvent.store ∈ es ++ [.store] := List.mem_append_right _ List.mem_cons_self
    exact ⟨h.idle_of_armed, (fun _ hinit => by cases hinit), fun _ => hin, fun _ => hin⟩
  | fire =>
    simp only [StartedTimer.step]
    split_ifs
    · -- the callback starts spinning, and the timer is no longer armed
      refine ⟨(fun ha => by cases ha), (fun hl => by cases hl), fun hr => hstored (h.ready hr), ?_⟩
      rintro (hw | hw) <;> cases hw
    · exact h.mono _
  | load =>
    simp only [StartedTimer.step]
    split_ifs with hpc
    · -- the loop ends on a state other than `stateInit`
      have harmed := h.not_armed (by rw [hpc.1]; decide)
      refine ⟨(fun ha => absurd ha (by simp [harmed])), fun _ => hpc.2,
        fun hr => hstored (h.ready hr), ?_⟩
      rintro (hw | hw) <;> cases hw
    · exact h.mono _
  | check =>
    simp only [StartedTimer.step]
    split_ifs with hpc hdone
    · -- the callback read `stateDone` and returns
      refine ⟨fun _ => rfl, (fun hl => by cases hl), fun hr => hstored (h.ready hr), ?_⟩
      rintro (hw | hw) <;> cases hw
    · -- the state it read is neither init nor done, so the store has run
      have harmed := h.not_armed (by rw [hpc]; decide)
      have hready : t.state = .stateReady := by
        have hinit := h.loaded hpc
        revert hinit hdone
        cases t.state <;> simp
      refine ⟨(fun ha => absurd ha (by simp [harmed])), (fun hl => by cases hl),
        fun hr => hstored (h.ready hr), fun _ => hstored (h.ready hready)⟩
    · exact h.mono _
  | callFn =>
    simp only [StartedTimer.step]
    split_ifs with hpc
    · have harmed := h.not_armed (by rw [hpc]; decide)
      refine ⟨(fun ha => absurd ha (by simp [harmed])), (fun hl => by cases hl),
        fun hr => hstored (h.ready hr), fun _ => hstored (h.window (Or.inl hpc))⟩
    · exact h.mono _
  | reset =>
    simp only [StartedTimer.step]
    split_ifs
    · -- `t.Reset` re-arms the timer as the callback ends
      refine ⟨fun _ => rfl, (fun hl => by cases hl), fun hr => hstored (h.ready hr), ?_⟩
      rintro (hw | hw) <;> cases hw
    · exact h.mono _
  | cancel =>
    simp only [StartedTimer.step]
    split_ifs
    · refine ⟨(fun ha => by cases ha), (fun _ hinit => by cases hinit), (fun hr => by cases hr),
        fun hw => hstored (h.window hw)⟩
    · exact h.mono _

end CallbackInv

/-- **Run lemma.** Every run keeps the invariant. -/
theorem callbackInv_run (es : List TimerEvent) : CallbackInv es (run es) := by
  induction es using List.reverseRecOn with
  | nil =>
    refine ⟨fun _ => rfl, (fun hl => by cases hl), (fun hr => by cases hr), ?_⟩
    rintro (hw | hw) <;> cases hw
  | append_singleton es e ih =>
    rw [show run (es ++ [e]) = ((run es).step e).2 from runFrom_append _ _ _ _]
    exact ih.step e

/-- **The callback waits for the store.** In every run, a step calls `fn` only after the
store, with the timer not armed: the spin loop keeps `fn` and `t.Reset` from running before
`t` is set, and no second callback runs beside this one. -/
theorem fn_called_after_store (pre : List TimerEvent) (e : TimerEvent)
    (hcall : ((run pre).step e).1 = true) :
    TimerEvent.store ∈ pre ∧ (run pre).armed = false := by
  have h := callbackInv_run pre
  -- only `callFn` calls `fn`, and only past the test
  have hpc : (run pre).pc = .checked := by
    cases e with
    | callFn =>
      simp only [StartedTimer.step] at hcall
      -- the other branch returns `false`
      split_ifs at hcall with hpc
      exact hpc
    | _ => simp [StartedTimer.step] at hcall
  exact ⟨h.window (Or.inl hpc), h.not_armed (by rw [hpc]; decide)⟩

/-- A first firing after the store. -/
theorem fn_called_after_store_firstFiring :
    (((run [.store, .fire, .load, .check]).step .callFn).1 = true) ∧
      TimerEvent.store ∈ [TimerEvent.store, .fire, .load, .check] ∧
      (run [.store, .fire, .load, .check]).armed = false :=
  ⟨by decide, fn_called_after_store [.store, .fire, .load, .check] .callFn (by decide)⟩

/-! ### Cancelling -/

theorem state_step_cancel (t : StartedTimer) : (t.step .cancel).2.state = .stateDone := by
  simp only [step]
  split_ifs with h
  · rfl
  · exact not_not.mp h

theorem pc_step_cancel (t : StartedTimer) : (t.step .cancel).2.pc = t.pc := by
  simp only [step]
  split_ifs <;> rfl

/-- Once `state` is done, a step other than the store keeps it done, and calls `fn` only out of
the budget. -/
theorem step_of_done {t : StartedTimer} (h : t.state = .stateDone) {e : TimerEvent}
    (he : e ≠ .store) :
    (t.step e).2.state = .stateDone ∧
      fnBudget (t.step e).2 + (if (t.step e).1 then 1 else 0) ≤ fnBudget t := by
  cases e with
  | store => exact absurd rfl he
  | check =>
    -- the test reads `stateDone`, so the callback returns instead of entering the window
    simp only [step, fnBudget, h, if_true]
    split_ifs <;> simp_all
  | callFn =>
    -- the one call a callback past its test still makes
    simp only [step, fnBudget]
    split_ifs <;> simp_all
  | fire | load | reset | cancel =>
    simp only [step, fnBudget]
    split_ifs <;> simp_all

/-- From a done state, the steps `post` call `fn` at most as often as the budget allows. -/
theorem count_outputs_of_done (post : List TimerEvent) (hpost : TimerEvent.store ∉ post) :
    ∀ t : StartedTimer, t.state = .stateDone →
      (outputs step t post).count true ≤ fnBudget t := by
  induction post with
  | nil => intro t _; simp
  | cons e post ih =>
    intro t h
    have he : e ≠ .store := fun he => hpost (he ▸ List.mem_cons_self)
    obtain ⟨hdone, hbudget⟩ := step_of_done h he
    have ih' := ih (fun hm => hpost (List.mem_cons_of_mem e hm)) _ hdone
    rw [outputs_cons, List.count_cons]
    -- the step's own call of `fn`, if it makes one, comes out of the budget
    cases hcall : (t.step e).1 <;> simp only [hcall, beq_iff_eq, if_true, Bool.false_eq_true,
      if_false] at hbudget ⊢ <;> omega

/-- **A cancel stops `fn`, but for one call in flight.** After a cancel, with no store after it,
`fn` is called at most once more, and not at all unless the callback was past its test of
`state` when the cancel ran. -/
theorem cancel_calls_fn_at_most_once (pre post : List TimerEvent)
    (hpost : TimerEvent.store ∉ post) :
    (outputs step (run (pre ++ [.cancel])) post).count true ≤
      if (run pre).pc = .checked then 1 else 0 := by
  have hrun : run (pre ++ [.cancel]) = ((run pre).step .cancel).2 := runFrom_append _ _ _ _
  have h := count_outputs_of_done post hpost _ (hrun ▸ state_step_cancel (run pre))
  rw [hrun, fnBudget, pc_step_cancel] at h
  rw [hrun]
  exact h

/-- The callback of a first firing, between its test and `fn`. -/
def inFlight : List TimerEvent :=
  [.store, .fire, .load, .check]

/-- The call in flight when the cancel runs is still made. -/
theorem cancel_calls_fn_at_most_once_inFlight :
    TimerEvent.store ∉ [TimerEvent.callFn, .reset, .fire, .load, .check] ∧
      (outputs step (run (inFlight ++ [.cancel])) [.callFn, .reset, .fire, .load, .check]).count
          true ≤ if (run inFlight).pc = .checked then 1 else 0 :=
  ⟨by decide, cancel_calls_fn_at_most_once inFlight _ (by decide)⟩

example : (outputs step (run (inFlight ++ [.cancel])) [.callFn, .reset, .fire, .load, .check]).count
    true = 1 := by decide

end StartedTimer

end ProtoActor.Scheduler
