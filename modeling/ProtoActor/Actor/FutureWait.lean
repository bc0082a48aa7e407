import Mathlib.Data.List.Nodup
import Mathlib.Data.List.Perm.Subperm
import ProtoActor.Actor.Future

/-!
# Waiting on a future

`Result()` and `Wait()` (`actor/future.go`) call `wait`, which takes the future's lock and, while
`done` is false, calls `cond.Wait()`: the goroutine is put on the cond's notify list, the lock
is released, and the goroutine sleeps until it is notified and takes the lock again to test
`done` once more.  Every call that completes the future ends in `futureProcess.Stop`, which
sets `done` under the lock, releases it, and then calls `cond.Signal()`: the oldest goroutine on
the notify list, if there is one, is woken.  A `Stop` that finds the future done returns at once,
without a signal.

`WaitSystem` holds the future, the program point of each goroutine in `wait` (`WaitPc`), the
notify list, and the program point of each goroutine calling into the future (`CallerPc`).  A
step is one atomic section of one of them, in any interleaving (`Step`): a test of `done` under
the lock, a whole call up to the release of the lock in `Stop` (the call is `Future.step`), or a
signal.

* `inv_of_reachable`: the notify list holds exactly the goroutines blocked in `cond.Wait`, once
  each; a goroutine returns from `wait` only once the future is done; and a signal is pending
  only once the future is done.
* `single_waiter_not_stranded`: with at most one goroutine in `wait`, once the call that
  completed the future has returned from `Stop`, no goroutine is blocked.  The signal that
  call owes covers the whole notify list (`SignalsCover`).
* `cond_signal_strands_waiter`: with two goroutines in `Result()` and one reply, `Stop` wakes one
  of them and returns, and the other stays blocked with `done` true in every state reached
  afterwards.
-/

namespace ProtoActor.Actor

open ProtoActor.Transition

variable {α κ : Type}

namespace Future

theorem done_stop (f : Future α κ) : f.stop.done = true := by
  cases h : f.done
  · rw [stop_of_not_done h]
  · rw [stop_of_done h, h]

/-- Nothing undoes `done`. -/
theorem done_step {f : Future α κ} (h : f.done = true) (op : FutureOp α κ) :
    (f.step op).done = true := by
  cases op with
  | sendUserMessage m => cases m <;> exact done_stop _
  | sendSystemMessage m => exact done_stop _
  | timeout => simp [step, timeout, h]
  | stop => exact done_stop _
  | pipeTo pids => simp [step, pipeTo, h, sendToPipes]
  | continueWith k => simp [step, continueWith, h, emit]

end Future

/-- Where a goroutine that called `Result()` or `Wait()` is in `wait`. -/
inductive WaitPc
  /-- before it takes the lock and tests `done` -/
  | start
  /-- in `cond.Wait`, on the notify list -/
  | waiting
  /-- notified, before it takes the lock again and tests `done` -/
  | woken
  | returned
  deriving DecidableEq, Repr

/-- The program points at which a goroutine tests `done` next. -/
def WaitPc.testsDone : WaitPc → Bool
  | .start | .woken => true
  | .waiting | .returned => false

/-- Where a goroutine calling into the future is. -/
inductive CallerPc (α κ : Type)
  | start (op : FutureOp α κ)
  /-- `Stop` has completed the future and released the lock, before `cond.Signal()` -/
  | signalling
  | returned
  deriving DecidableEq, Repr

def CallerPc.isSignalling : CallerPc α κ → Bool
  | .signalling => true
  | _ => false

/-- A future, the goroutines waiting on it, the cond's notify list, and the goroutines calling
into it. -/
structure WaitSystem (α κ : Type) where
  future : Future α κ
  waiters : List WaitPc
  notify : List ℕ
  callers : List (CallerPc α κ)

namespace WaitSystem

/-- A new future, `n` goroutines about to call `Result()` or `Wait()`, and one goroutine for
each call. -/
def init (n : ℕ) (ops : List (FutureOp α κ)) : WaitSystem α κ :=
  ⟨Future.new, List.replicate n .start, [], ops.map .start⟩

/-- Waiter `i` takes the lock and tests `done`: it returns, or `cond.Wait()` puts it on the
notify list before the lock is released. -/
def waiterTurn (s : WaitSystem α κ) (i : ℕ) : WaitSystem α κ :=
  if s.future.done then { s with waiters := s.waiters.set i .returned }
  else { s with waiters := s.waiters.set i .waiting, notify := s.notify ++ [i] }

/-- Caller `j` makes its call up to the release of the lock; the `Stop` that completes the
future still owes its signal. -/
def callerTurn (s : WaitSystem α κ) (j : ℕ) (op : FutureOp α κ) : WaitSystem α κ :=
  { s with
    future := s.future.step op
    callers := s.callers.set j
      (if !s.future.done && (s.future.step op).done then .signalling else .returned) }

/-- Caller `j` calls `cond.Signal()`: the oldest goroutine on the notify list is woken. -/
def signal (s : WaitSystem α κ) (j : ℕ) : WaitSystem α κ :=
  match s.notify with
  | [] => { s with callers := s.callers.set j .returned }
  | i :: rest =>
    { s with waiters := s.waiters.set i .woken, notify := rest, callers := s.callers.set j .returned }

/-- One atomic section of one goroutine. -/
inductive Step : WaitSystem α κ → WaitSystem α κ → Prop
  | waiter (s : WaitSystem α κ) (i : ℕ) (pc : WaitPc) (h : s.waiters[i]? = some pc)
      (htest : pc.testsDone = true) : Step s (s.waiterTurn i)
  | caller (s : WaitSystem α κ) (j : ℕ) (op : FutureOp α κ)
      (h : s.callers[j]? = some (.start op)) : Step s (s.callerTurn j op)
  | signal (s : WaitSystem α κ) (j : ℕ) (h : s.callers[j]? = some .signalling) :
      Step s (s.signal j)

/-- The states reached from `init n ops`. -/
def Reached (n : ℕ) (ops : List (FutureOp α κ)) : WaitSystem α κ → Prop :=
  Reachable (· = init n ops) Step

/-! ### Each section as a record update -/

@[simp] theorem waiterTurn_future (s : WaitSystem α κ) (i : ℕ) :
    (s.waiterTurn i).future = s.future := by
  unfold waiterTurn; split_ifs <;> rfl

theorem waiterTurn_of_done {s : WaitSystem α κ} (h : s.future.done = true) (i : ℕ) :
    s.waiterTurn i = { s with waiters := s.waiters.set i .returned } := by
  simp [waiterTurn, h]

theorem waiterTurn_of_not_done {s : WaitSystem α κ} (h : s.future.done = false) (i : ℕ) :
    s.waiterTurn i = { s with waiters := s.waiters.set i .waiting, notify := s.notify ++ [i] } := by
  simp [waiterTurn, h]

@[simp] theorem callerTurn_notify (s : WaitSystem α κ) (j : ℕ) (op : FutureOp α κ) :
    (s.callerTurn j op).notify = s.notify := rfl

@[simp] theorem callerTurn_future (s : WaitSystem α κ) (j : ℕ) (op : FutureOp α κ) :
    (s.callerTurn j op).future = s.future.step op := rfl

theorem callerTurn_callers (s : WaitSystem α κ) (j : ℕ) (op : FutureOp α κ) :
    (s.callerTurn j op).callers = s.callers.set j
      (if !s.future.done && (s.future.step op).done then .signalling else .returned) := rfl

@[simp] theorem signal_future (s : WaitSystem α κ) (j : ℕ) : (s.signal j).future = s.future := by
  unfold signal; split <;> rfl

theorem length_waiters_step {s s' : WaitSystem α κ} (h : Step s s') :
    s'.waiters.length = s.waiters.length := by
  cases h with
  | waiter i =>
    unfold waiterTurn; split_ifs <;> exact List.length_set
  | caller => rfl
  | signal j =>
    unfold signal; split
    · rfl
    · exact List.length_set

/-! ### Schedules -/

/-- The section a schedule runs next: a waiter's test, a caller's call, or a caller's signal. -/
inductive Turn
  | waiter (i : ℕ)
  | caller (j : ℕ)
  | signal (j : ℕ)
  deriving DecidableEq, Repr

/-- The section, if the goroutine is at it. -/
def next (s : WaitSystem α κ) : Turn → Option (WaitSystem α κ)
  | .waiter i => match s.waiters[i]? with
    | some pc => if pc.testsDone then some (s.waiterTurn i) else none
    | none => none
  | .caller j => match s.callers[j]? with
    | some (.start op) => some (s.callerTurn j op)
    | _ => none
  | .signal j => match s.callers[j]? with
    | some .signalling => some (s.signal j)
    | _ => none

theorem step_of_next {s s' : WaitSystem α κ} {t : Turn} (h : s.next t = some s') : Step s s' := by
  cases t with
  | waiter i =>
    simp only [next] at h
    split at h
    · split_ifs at h with htest
      cases h
      exact .waiter s i _ ‹_› htest
    · cases h
  | caller j =>
    simp only [next] at h
    split at h
    · cases h
      exact .caller s j _ ‹_›
    · cases h
  | signal j =>
    simp only [next] at h
    split at h
    · cases h
      exact .signal s j ‹_›
    · cases h

/-! ### The invariant -/

/-- The notify list holds the goroutines blocked in `cond.Wait`, once each; a goroutine
returns from `wait` and a signal is pending only once the future is done. -/
structure Inv (s : WaitSystem α κ) : Prop where
  nodup : s.notify.Nodup
  mem_notify : ∀ i : ℕ, i ∈ s.notify ↔ s.waiters[i]? = some .waiting
  done_of_returned : ∀ i : ℕ, s.waiters[i]? = some .returned → s.future.done = true
  done_of_signalling : ∀ j : ℕ, s.callers[j]? = some .signalling → s.future.done = true

theorem inv_init (n : ℕ) (ops : List (FutureOp α κ)) : (init n ops).Inv where
  nodup := List.nodup_nil
  mem_notify i := by
    simp only [init, List.not_mem_nil, false_iff, List.getElem?_replicate]
    split_ifs <;> simp
  done_of_returned i := by
    simp only [init, List.getElem?_replicate]
    split_ifs <;> simp
  done_of_signalling j := by
    simp [init]

/-- A goroutine that tests `done` is not on the notify list. -/
theorem Inv.not_mem_notify {s : WaitSystem α κ} (h : s.Inv) {i : ℕ} {pc : WaitPc}
    (hi : s.waiters[i]? = some pc) (htest : pc.testsDone = true) : i ∉ s.notify := by
  rw [h.mem_notify, hi]
  rintro ⟨⟩
  cases htest

theorem Inv.waiterTurn {s : WaitSystem α κ} (h : s.Inv) {i : ℕ} {pc : WaitPc}
    (hi : s.waiters[i]? = some pc) (htest : pc.testsDone = true) : (s.waiterTurn i).Inv := by
  have hlt : i < s.waiters.length := (List.getElem?_eq_some_iff.mp hi).1
  have hnot := h.not_mem_notify hi htest
  cases hdone : s.future.done
  · -- not done: the goroutine goes on the notify list
    rw [waiterTurn_of_not_done hdone]
    refine ⟨h.nodup.append (List.nodup_singleton i) (by simpa using hnot), fun k => ?_,
      fun k hk => ?_, h.done_of_signalling⟩
    · by_cases hk : k = i
      · subst hk
        simp [List.getElem?_set_self hlt]
      · rw [List.getElem?_set_ne (Ne.symm hk), List.mem_append, h.mem_notify]
        simp [hk]
    · have hki : k ≠ i := by
        rintro rfl
        rw [List.getElem?_set_self hlt] at hk
        cases hk
      rw [List.getElem?_set_ne (Ne.symm hki)] at hk
      exact h.done_of_returned k hk
  · -- done: the goroutine returns
    rw [waiterTurn_of_done hdone]
    refine ⟨h.nodup, fun k => ?_, fun _ _ => hdone, h.done_of_signalling⟩
    by_cases hk : k = i
    · subst hk
      simp [List.getElem?_set_self hlt, hnot]
    · rw [List.getElem?_set_ne (Ne.symm hk), h.mem_notify]

theorem Inv.callerTurn {s : WaitSystem α κ} (h : s.Inv) (j : ℕ) (op : FutureOp α κ) :
    (s.callerTurn j op).Inv := by
  refine ⟨h.nodup, h.mem_notify, fun i hi => Future.done_step (h.done_of_returned i hi) op,
    fun k hk => ?_⟩
  rw [callerTurn_future]
  rw [callerTurn_callers] at hk
  by_cases hjk : j = k
  · -- the caller's own slot is signalling only if its call completed the future
    subst hjk
    by_cases hsig : (!s.future.done && (s.future.step op).done) = true
    · exact (Bool.and_eq_true_iff.mp hsig).2
    · simp [hsig, List.getElem?_set] at hk
  · rw [List.getElem?_set_ne hjk] at hk
    exact Future.done_step (h.done_of_signalling k hk) op

theorem Inv.signal {s : WaitSystem α κ} (h : s.Inv) {j : ℕ}
    (hj : s.callers[j]? = some .signalling) : (s.signal j).Inv := by
  have hdone := h.done_of_signalling j hj
  have hfuture : (s.signal j).future.done = true := by rw [signal_future]; exact hdone
  unfold WaitSystem.signal
  split
  · exact ⟨h.nodup, h.mem_notify, fun _ _ => hdone, fun _ _ => hdone⟩
  · -- the oldest goroutine on the list is woken and leaves it
    rename_i i rest hnotify
    have hnd := h.nodup
    rw [hnotify, List.nodup_cons] at hnd
    have hi : s.waiters[i]? = some .waiting := (h.mem_notify i).mp (by simp [hnotify])
    have hlt : i < s.waiters.length := (List.getElem?_eq_some_iff.mp hi).1
    refine ⟨hnd.2, fun k => ?_, fun _ _ => hdone, fun _ _ => hdone⟩
    by_cases hk : k = i
    · subst hk
      simp [List.getElem?_set_self hlt, hnd.1]
    · rw [List.getElem?_set_ne (Ne.symm hk), ← h.mem_notify, hnotify, List.mem_cons]
      simp [hk]

theorem Inv.step {s s' : WaitSystem α κ} (h : s.Inv) (hs : Step s s') : s'.Inv := by
  cases hs with
  | waiter i pc hi htest => exact h.waiterTurn hi htest
  | caller j op => exact h.callerTurn j op
  | signal j hj => exact h.signal hj

theorem inv_of_reachable {n : ℕ} {ops : List (FutureOp α κ)} {s : WaitSystem α κ}
    (hs : Reached n ops s) : s.Inv :=
  reachable_induction (by rintro _ rfl; exact inv_init n ops) (fun _ _ h hs => h.step hs) s hs

/-! ### One waiter is always woken -/

/-- Once the future is done, the signals still owed cover the notify list. -/
def SignalsCover (s : WaitSystem α κ) : Prop :=
  s.future.done = true → s.notify.length ≤ s.callers.countP CallerPc.isSignalling

/-- A notify list of distinct waiters of a system with at most one waiter holds at most one. -/
theorem Inv.length_notify_le {s : WaitSystem α κ} (h : s.Inv) (hn : s.waiters.length ≤ 1) :
    s.notify.length ≤ 1 := by
  have hsub : s.notify ⊆ List.range s.waiters.length := by
    intro i hi
    rw [h.mem_notify] at hi
    exact List.mem_range.mpr (List.getElem?_eq_some_iff.mp hi).1
  calc s.notify.length ≤ (List.range s.waiters.length).length := (h.nodup.subperm hsub).length_le
    _ ≤ 1 := by rw [List.length_range]; exact hn

theorem countP_isSignalling_set (l : List (CallerPc α κ)) {j : ℕ} {pc : CallerPc α κ}
    (hj : l[j]? = some pc) (pc' : CallerPc α κ) :
    (l.set j pc').countP CallerPc.isSignalling + (if pc.isSignalling then 1 else 0) =
      l.countP CallerPc.isSignalling + (if pc'.isSignalling then 1 else 0) := by
  obtain ⟨hlt, hpc⟩ := List.getElem?_eq_some_iff.mp hj
  have hle : (if pc.isSignalling then 1 else 0) ≤ l.countP CallerPc.isSignalling := by
    split_ifs with hsig
    · exact List.countP_pos_iff.mpr ⟨pc, List.mem_of_getElem? hj, hsig⟩
    · exact Nat.zero_le _
  rw [List.countP_set hlt, hpc]
  omega

theorem SignalsCover.step {s s' : WaitSystem α κ} (hc : s.SignalsCover) (h : s.Inv)
    (hn : s.waiters.length ≤ 1) (hs : Step s s') : s'.SignalsCover := by
  intro hdone'
  cases hs with
  | waiter i pc hi htest =>
    rw [waiterTurn_future] at hdone'
    rw [waiterTurn_of_done hdone']
    exact hc hdone'
  | caller j op hj =>
    rw [callerTurn_notify, callerTurn_callers]
    rw [callerTurn_future] at hdone'
    cases hdone : s.future.done
    · -- this call completed the future: its signal covers the one waiter there can be
      have hcount := countP_isSignalling_set s.callers hj .signalling
      simp only [CallerPc.isSignalling, Bool.false_eq_true, if_true, if_false,
        Nat.add_zero] at hcount
      simp only [hdone', Bool.not_false, Bool.and_self, if_true]
      have := h.length_notify_le hn
      omega
    · have hcount := countP_isSignalling_set s.callers hj .returned
      simp only [CallerPc.isSignalling, Bool.false_eq_true, if_false, Nat.add_zero] at hcount
      simp only [Bool.not_true, Bool.false_and, Bool.false_eq_true, if_false]
      rw [hcount]
      exact hc hdone
  | signal j hj =>
    have hcount := countP_isSignalling_set s.callers hj .returned
    simp only [CallerPc.isSignalling, if_true, Bool.false_eq_true, if_false, Nat.add_zero] at hcount
    have hle := hc (h.done_of_signalling j hj)
    unfold WaitSystem.signal
    split
    · rename_i hnotify
      show s.notify.length ≤ (s.callers.set j .returned).countP CallerPc.isSignalling
      rw [hnotify]
      exact Nat.zero_le _
    · -- the signal wakes one goroutine and is paid
      rename_i i rest hnotify
      show rest.length ≤ (s.callers.set j .returned).countP CallerPc.isSignalling
      rw [hnotify, List.length_cons] at hle
      omega

/-- With at most one goroutine in `wait`, every reachable state keeps the invariant and has its
notify list covered. -/
theorem signalsCover_of_reachable {n : ℕ} (hn : n ≤ 1) {ops : List (FutureOp α κ)}
    {s : WaitSystem α κ} (hs : Reached n ops s) : s.SignalsCover := by
  have hall : ∀ s, Reached n ops s → s.Inv ∧ s.waiters.length = n ∧ s.SignalsCover := by
    refine reachable_induction ?_ ?_
    · rintro _ rfl
      refine ⟨inv_init n ops, List.length_replicate, fun hdone => ?_⟩
      simp [init, Future.new] at hdone
    · rintro s s' ⟨h, hlen, hc⟩ hstep
      refine ⟨h.step hstep, (length_waiters_step hstep).trans hlen, ?_⟩
      exact hc.step h (hlen ▸ hn) hstep
  exact (hall s hs).2.2

/-- Once every call has returned from `Stop`, none is left to signal. -/
theorem not_signalling_of_returned {s : WaitSystem α κ} (h : ∀ pc ∈ s.callers, pc = .returned)
    (j : ℕ) : s.callers[j]? ≠ some .signalling := by
  intro hj
  cases h _ (List.mem_of_getElem? hj)

/-- With at most one goroutine in `Result()` or `Wait()`, once the future is done and the call
that completed it has returned from `Stop`, no goroutine is blocked. -/
theorem single_waiter_not_stranded {n : ℕ} (hn : n ≤ 1) {ops : List (FutureOp α κ)}
    {s : WaitSystem α κ} (hs : Reached n ops s) (hdone : s.future.done = true)
    (hret : ∀ j : ℕ, s.callers[j]? ≠ some .signalling) (i : ℕ) :
    s.waiters[i]? ≠ some .waiting := by
  have hnone : s.callers.countP CallerPc.isSignalling = 0 := by
    rw [List.countP_eq_zero]
    intro pc hpc hsig
    obtain ⟨j, hj⟩ := List.mem_iff_getElem?.mp hpc
    cases pc with
    | signalling => exact hret j hj
    | start op => cases hsig
    | returned => cases hsig
  have hempty : s.notify = [] := by
    have := signalsCover_of_reachable hn hs hdone
    rw [hnone] at this
    exact List.eq_nil_of_length_eq_zero (Nat.le_zero.mp this)
  intro hi
  have hmem := ((inv_of_reachable hs).mem_notify i).mpr hi
  rw [hempty] at hmem
  exact List.not_mem_nil hmem

/-- The goroutine in `Result()` blocks, then the reply completes the future and signals. -/
def oneWaiterSchedule : List Turn :=
  [.waiter 0, .caller 0, .signal 0]

/-- The wait system at the end of `oneWaiterSchedule`, for one goroutine in `Result()` and one
reply. -/
def oneWaiterSignalled : WaitSystem ℕ Unit :=
  (replay next (init 1 [.sendUserMessage (.message 1)]) oneWaiterSchedule).getD
    (init 1 [.sendUserMessage (.message 1)])

theorem single_waiter_not_stranded_oneWaiterSignalled :
    Reached 1 [.sendUserMessage (.message 1)] oneWaiterSignalled ∧
      oneWaiterSignalled.future.done = true ∧
      (∀ j : ℕ, oneWaiterSignalled.callers[j]? ≠ some .signalling) ∧
      oneWaiterSignalled.waiters[0]? ≠ some .waiting := by
  have hnext : ∀ (s : WaitSystem ℕ Unit) t s', s.next t = some s' → Step s s' :=
    fun _ _ _ h => step_of_next h
  have hreplay : replay next (init 1 [.sendUserMessage (.message 1)]) oneWaiterSchedule =
      some oneWaiterSignalled := rfl
  have hs : Reached 1 [.sendUserMessage (.message 1)] oneWaiterSignalled :=
    reachable_of_replay hnext oneWaiterSchedule (Reachable.of_init rfl) hreplay
  have hdone : oneWaiterSignalled.future.done = true := by decide
  have hcallers : oneWaiterSignalled.callers = [.returned] := by decide
  have hret : ∀ j : ℕ, oneWaiterSignalled.callers[j]? ≠ some .signalling :=
    not_signalling_of_returned (by simp [hcallers])
  exact ⟨hs, hdone, hret, single_waiter_not_stranded (Nat.le_refl 1) hs hdone hret 0⟩

/-! ### Two waiters -/

/-- Once the future is done and no signal is owed, a blocked goroutine stays blocked. -/
theorem stranded_stable (i : ℕ) :
    Stable (Step (α := α) (κ := κ)) fun s => s.future.done = true ∧
      (∀ j : ℕ, s.callers[j]? ≠ some .signalling) ∧ s.waiters[i]? = some .waiting := by
  rintro s s' hs ⟨hdone, hret, hi⟩
  cases hs with
  | waiter k pc hk htest =>
    -- the goroutine that tests `done` returns; it is not the blocked one
    have hki : k ≠ i := by
      rintro rfl
      rw [hi, Option.some_inj] at hk
      subst hk
      cases htest
    rw [waiterTurn_of_done hdone]
    exact ⟨hdone, hret, by rw [List.getElem?_set_ne hki]; exact hi⟩
  | caller j op hj =>
    -- a call on a done future returns from `Stop` at once, without a signal
    refine ⟨Future.done_step hdone op, fun k hk => ?_, hi⟩
    rw [callerTurn_callers] at hk
    by_cases hjk : j = k
    · subst hjk
      simp [hdone, List.getElem?_set] at hk
    · rw [List.getElem?_set_ne hjk] at hk
      exact hret k hk
  | signal j hj => exact absurd hj (hret j)

end WaitSystem

open WaitSystem

/-- Two goroutines in `Result()`, and one reply. -/
def twoWaitersOneReply : List (FutureOp ℕ Unit) :=
  [.sendUserMessage (.message 1)]

/-- Both goroutines block, the reply completes the future and signals, the woken goroutine
returns. -/
def strandingSchedule : List Turn :=
  [.waiter 0, .waiter 1, .caller 0, .signal 0, .waiter 0]

theorem cond_signal_strands_waiter :
    ∃ s : WaitSystem ℕ Unit, Reached 2 twoWaitersOneReply s ∧
      s.future.done = true ∧ s.callers = [.returned] ∧ s.waiters[1]? = some .waiting ∧
      ∀ s', Relation.ReflTransGen Step s s' →
        s'.future.done = true ∧ s'.waiters[1]? = some .waiting := by
  obtain ⟨s, hs, hp⟩ := @exists_reachable_of_replay _ _ (· = init 2 twoWaitersOneReply) Step
    WaitSystem.next (fun _ _ _ => step_of_next) _ rfl strandingSchedule
    (fun s => s.future.done && s.callers == [.returned] && s.waiters[1]? == some .waiting)
    (by decide)
  simp only [Bool.and_eq_true, beq_iff_eq] at hp
  obtain ⟨⟨hdone, hcallers⟩, hwait⟩ := hp
  have hret : ∀ j : ℕ, s.callers[j]? ≠ some .signalling :=
    not_signalling_of_returned (by simp [hcallers])
  refine ⟨s, hs, hdone, hcallers, hwait, fun s' hrun => ?_⟩
  obtain ⟨hdone', -, hwait'⟩ := (stranded_stable 1).reflTransGen hrun ⟨hdone, hret, hwait⟩
  exact ⟨hdone', hwait'⟩

end ProtoActor.Actor
