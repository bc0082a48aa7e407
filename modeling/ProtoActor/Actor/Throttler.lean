import Mathlib.Algebra.Group.Nat.Defs
import Mathlib.Data.Int.Notation
import Mathlib.Data.List.Induction
import ProtoActor.Transition.Run

/-!
# The throttle

`actor/throttler.go`.  `NewThrottle` returns a function that counts its calls in an `int32` with
`atomic.AddInt32`, and answers `Open` below `maxEventsInPeriod`, `Closing` at it and `Closed`
above it.  The call that makes the count one starts a goroutine; when its ticker ticks, the
goroutine sets the count back to zero with `atomic.SwapInt32` and, if the count was above the
maximum, calls `throttledCallBack` with the excess.  Each atomic operation is one step here, a
call or the tick of a started goroutine, and any interleaving of the callers and the goroutines
is a list of such steps.  `NewThrottleWithLogger` is the same machine, its callback also given
the logger.

The calls since the last tick, `callsSinceTick`, are the period a run is in.

* `throttle_timer_pending`: after every run the count is the period's calls wrapped to 32 bits,
  and while the period has calls a goroutine is pending that will end it, so the throttle never
  stays closed.
* `throttle_answers_by_rank`: while fewer than `2 ^ 31` calls were made, exactly one goroutine
  is pending in a period with calls and none otherwise, and each call is answered by its rank in
  its period against the maximum (`valveOf`).
* `throttle_reports_throttled_calls`: for a non-negative maximum, each tick calls back exactly
  when some call of the period was answered `Closed`, with their number.
* `throttle_reopens_after_wrap`: in every run, the `2 ^ 31`-th call of a period wraps the count
  to `-2 ^ 31` and is answered `Open`.
-/

namespace ProtoActor.Actor

open ProtoActor.Transition

/-- `Valve`. -/
inductive Valve
  /-- `Open`. -/
  | opened
  /-- `Closing`. -/
  | closing
  /-- `Closed`. -/
  | closed
  deriving DecidableEq, Repr

/-- What `NewThrottle` closes over: the count `currentEvents`, and the goroutines `startTimer`
started whose ticker has not ticked. -/
structure Throttle where
  currentEvents : Int32
  timers : ℕ
  deriving DecidableEq, Repr

/-- An atomic step of the callers and the goroutines. -/
inductive ThrottleEvent
  /-- A call of the function `NewThrottle` returns. -/
  | call
  /-- The tick of a started goroutine's ticker. -/
  | tick
  deriving DecidableEq, Repr

/-- What a step returns: a call's valve, or what a tick calls `throttledCallBack` with, if it
calls it. -/
inductive ThrottleOutput
  | valve (v : Valve)
  | callback (throttled : Option Int32)
  deriving DecidableEq, Repr

/-- A call's answer. -/
def ThrottleOutput.isValve : ThrottleOutput → Bool
  | .valve _ => true
  | .callback _ => false

namespace Throttle

variable (maxEventsInPeriod : Int32)

/-- The throttle `NewThrottle` returns, before its first call. -/
def newThrottle : Throttle := ⟨0, 0⟩

/-- The answer to the call that made the count `tries`. -/
def valve (tries : Int32) : Valve :=
  if tries = maxEventsInPeriod then .closing
  else if tries > maxEventsInPeriod then .closed
  else .opened

/-- A call: `atomic.AddInt32`, and a goroutine started when the count becomes one. -/
def shouldThrottle (t : Throttle) : Valve × Throttle :=
  let tries := t.currentEvents + 1
  (valve maxEventsInPeriod tries, ⟨tries, if tries = 1 then t.timers + 1 else t.timers⟩)

/-- A started goroutine's tick: `atomic.SwapInt32` sets the count to zero, and the calls above
the maximum are what `throttledCallBack` is called with, if there are any.  With no goroutine
started, nothing ticks. -/
def tick (t : Throttle) : Option Int32 × Throttle :=
  if t.timers = 0 then (none, t)
  else
    let timesCalled := t.currentEvents
    (if timesCalled > maxEventsInPeriod then some (timesCalled - maxEventsInPeriod) else none,
      ⟨0, t.timers - 1⟩)

/-- One step of the interleaving. -/
def step (t : Throttle) : ThrottleEvent → ThrottleOutput × Throttle
  | .call =>
    let r := t.shouldThrottle maxEventsInPeriod
    (.valve r.1, r.2)
  | .tick =>
    let r := t.tick maxEventsInPeriod
    (.callback r.1, r.2)

/-- The throttle after the steps `es`. -/
def run (es : List ThrottleEvent) : Throttle :=
  runFrom (fun t e => (t.step maxEventsInPeriod e).2) newThrottle es

theorem shouldThrottle_fst (t : Throttle) :
    (t.shouldThrottle maxEventsInPeriod).1 = valve maxEventsInPeriod (t.currentEvents + 1) :=
  rfl

@[simp] theorem step_call (t : Throttle) :
    t.step maxEventsInPeriod .call =
      (.valve (t.shouldThrottle maxEventsInPeriod).1, (t.shouldThrottle maxEventsInPeriod).2) :=
  rfl

@[simp] theorem step_tick (t : Throttle) :
    t.step maxEventsInPeriod .tick =
      (.callback (t.tick maxEventsInPeriod).1, (t.tick maxEventsInPeriod).2) :=
  rfl

theorem run_append_singleton (es : List ThrottleEvent) (e : ThrottleEvent) :
    run maxEventsInPeriod (es ++ [e]) = ((run maxEventsInPeriod es).step maxEventsInPeriod e).2 :=
  runFrom_append _ _ _ _

theorem outputs_append_singleton (es : List ThrottleEvent) (e : ThrottleEvent) :
    outputs (step maxEventsInPeriod) newThrottle (es ++ [e]) =
      outputs (step maxEventsInPeriod) newThrottle es ++
        [((run maxEventsInPeriod es).step maxEventsInPeriod e).1] :=
  outputs_append _ _ _ _

end Throttle

/-! ### Periods -/

/-- The calls since the last tick. -/
def callsSinceTick (es : List ThrottleEvent) : ℕ :=
  (es.reverse.takeWhile (· == .call)).length

/-- The calls answered `Closed` since the last tick. -/
def closedSinceTick (outs : List ThrottleOutput) : ℕ :=
  (outs.reverse.takeWhile ThrottleOutput.isValve).count (.valve .closed)

/-- The answer the `n`-th call of a period should get, by its rank against the maximum. -/
def valveOf (maxEventsInPeriod : ℤ) (n : ℕ) : Valve :=
  if (n : ℤ) = maxEventsInPeriod then .closing
  else if maxEventsInPeriod < n then .closed
  else .opened

theorem valveOf_eq_closed_iff (maxEventsInPeriod : ℤ) (n : ℕ) :
    valveOf maxEventsInPeriod n = .closed ↔ maxEventsInPeriod < n := by
  unfold valveOf
  split_ifs with h1 h2
  · simp only [false_iff]
    omega
  · simp only [h2]
  · simp only [false_iff]
    omega

@[simp] theorem callsSinceTick_nil : callsSinceTick [] = 0 := rfl

@[simp] theorem callsSinceTick_append_call (es : List ThrottleEvent) :
    callsSinceTick (es ++ [.call]) = callsSinceTick es + 1 := by
  simp [callsSinceTick]

@[simp] theorem callsSinceTick_append_tick (es : List ThrottleEvent) :
    callsSinceTick (es ++ [.tick]) = 0 := by
  simp [callsSinceTick]

theorem callsSinceTick_append_replicate (es : List ThrottleEvent) (k : ℕ) :
    callsSinceTick (es ++ List.replicate k .call) = callsSinceTick es + k := by
  induction k with
  | zero => simp
  | succ k ih =>
    rw [List.replicate_succ', ← List.append_assoc, callsSinceTick_append_call, ih]
    omega

@[simp] theorem closedSinceTick_nil : closedSinceTick [] = 0 := rfl

@[simp] theorem closedSinceTick_append_valve (outs : List ThrottleOutput) (v : Valve) :
    closedSinceTick (outs ++ [.valve v]) =
      closedSinceTick outs + if v = .closed then 1 else 0 := by
  have htw : (outs ++ [ThrottleOutput.valve v]).reverse.takeWhile ThrottleOutput.isValve =
      .valve v :: outs.reverse.takeWhile ThrottleOutput.isValve := by
    rw [List.reverse_append, List.reverse_singleton, List.singleton_append,
      List.takeWhile_cons_of_pos rfl]
  unfold closedSinceTick
  rw [htw, List.count_cons]
  by_cases hv : v = .closed <;> simp [hv]

@[simp] theorem closedSinceTick_append_callback (outs : List ThrottleOutput)
    (c : Option Int32) : closedSinceTick (outs ++ [.callback c]) = 0 := by
  simp [closedSinceTick, ThrottleOutput.isValve]

theorem count_call_append_singleton (es : List ThrottleEvent) (e : ThrottleEvent) :
    (es ++ [e]).count .call = es.count .call + if e = .call then 1 else 0 := by
  cases e <;> simp [List.count_append]

theorem callsSinceTick_le_count (es : List ThrottleEvent) :
    callsSinceTick es ≤ es.count .call := by
  induction es using List.reverseRecOn with
  | nil => simp
  | append_singleton es e ih =>
    cases e
    · rw [callsSinceTick_append_call, count_call_append_singleton, if_pos rfl]
      omega
    · rw [callsSinceTick_append_tick]
      omega

theorem ofNat_add_one (n : ℕ) : Int32.ofNat n + 1 = Int32.ofNat (n + 1) :=
  (Int32.ofNat_add n 1).symm

/-- Below `2 ^ 31` the code's comparisons on the count are those on its rank. -/
theorem valve_ofNat (maxEventsInPeriod : Int32) {n : ℕ} (hn : n < 2 ^ 31) :
    Throttle.valve maxEventsInPeriod (Int32.ofNat n) = valveOf maxEventsInPeriod.toInt n := by
  have hint : (Int32.ofNat n).toInt = n := Int32.toInt_ofNat_of_lt hn
  have heq : Int32.ofNat n = maxEventsInPeriod ↔ (n : ℤ) = maxEventsInPeriod.toInt := by
    rw [← Int32.toInt_inj, hint]
  have hlt : Int32.ofNat n > maxEventsInPeriod ↔ maxEventsInPeriod.toInt < n := by
    rw [gt_iff_lt, Int32.lt_iff_toInt_lt, hint]
  unfold Throttle.valve valveOf
  simp only [heq, hlt]

/-! ### The invariant of every run -/

/-- What holds in a period of `n` calls: the count is `n` wrapped to 32 bits, and a goroutine is
pending if `n` is not zero. -/
structure PeriodInv (n : ℕ) (t : Throttle) : Prop where
  currentEvents : t.currentEvents = Int32.ofNat n
  pending : n ≠ 0 → 0 < t.timers

namespace PeriodInv

variable (maxEventsInPeriod : Int32) {n : ℕ} {t : Throttle}

/-- A call adds one to the period; the first call of a period starts its goroutine. -/
theorem shouldThrottle (h : PeriodInv n t) :
    PeriodInv (n + 1) (t.shouldThrottle maxEventsInPeriod).2 where
  currentEvents := by
    show t.currentEvents + 1 = Int32.ofNat (n + 1)
    rw [h.currentEvents, ofNat_add_one]
  pending _ := by
    show 0 < if t.currentEvents + 1 = 1 then t.timers + 1 else t.timers
    rcases Nat.eq_zero_or_pos n with rfl | hn
    · have hone : t.currentEvents + 1 = 1 := by
        rw [h.currentEvents]
        rfl
      rw [if_pos hone]
      omega
    · have hpending := h.pending (by omega)
      split <;> omega

/-- A tick ends the period; with no goroutine there is no period to end. -/
theorem tick (h : PeriodInv n t) : PeriodInv 0 (t.tick maxEventsInPeriod).2 where
  currentEvents := by
    unfold Throttle.tick
    split
    · rename_i h0
      have hn : n = 0 := by
        by_contra hn
        have := h.pending hn
        omega
      rw [← hn]
      exact h.currentEvents
    · rfl
  pending h0 := absurd rfl h0

end PeriodInv

/-- **Run lemma.** Every run leaves the throttle in the invariant of its period. -/
theorem periodInv_run (maxEventsInPeriod : Int32) (es : List ThrottleEvent) :
    PeriodInv (callsSinceTick es) (Throttle.run maxEventsInPeriod es) := by
  induction es using List.reverseRecOn with
  | nil => exact ⟨rfl, fun h => absurd rfl h⟩
  | append_singleton es e ih =>
    rw [Throttle.run_append_singleton]
    cases e with
    | call =>
      rw [callsSinceTick_append_call]
      exact ih.shouldThrottle maxEventsInPeriod
    | tick =>
      rw [callsSinceTick_append_tick]
      exact ih.tick maxEventsInPeriod

/-- **Count and goroutine.** After every interleaving of calls and ticks the count is the calls
since the last tick, wrapped to 32 bits, and while there are such calls a goroutine is pending
whose tick ends the period. -/
theorem throttle_timer_pending (maxEventsInPeriod : Int32) (es : List ThrottleEvent) :
    (Throttle.run maxEventsInPeriod es).currentEvents = Int32.ofNat (callsSinceTick es) ∧
      (callsSinceTick es ≠ 0 → 0 < (Throttle.run maxEventsInPeriod es).timers) := by
  have h := periodInv_run maxEventsInPeriod es
  exact ⟨h.currentEvents, h.pending⟩

/-! ### Runs without overflow -/

section Bounded

variable (maxEventsInPeriod : Int32)

/-- A call answers by its rank. -/
theorem shouldThrottle_fst_of_periodInv {n : ℕ} {t : Throttle} (h : PeriodInv n t) (hn : n + 1 < 2 ^ 31) :
    (t.shouldThrottle maxEventsInPeriod).1 = valveOf maxEventsInPeriod.toInt (n + 1) := by
  show Throttle.valve maxEventsInPeriod (t.currentEvents + 1) = _
  rw [h.currentEvents, ofNat_add_one, valve_ofNat maxEventsInPeriod hn]

/-- Below `2 ^ 31` calls, one goroutine is pending in a period with calls and none otherwise. -/
theorem timers_run (es : List ThrottleEvent) (hbound : es.count .call < 2 ^ 31) :
    (Throttle.run maxEventsInPeriod es).timers = if callsSinceTick es = 0 then 0 else 1 := by
  induction es using List.reverseRecOn with
  | nil => rfl
  | append_singleton es e ih =>
    rw [count_call_append_singleton] at hbound
    have hinv := periodInv_run maxEventsInPeriod es
    have hle := callsSinceTick_le_count es
    have ih' := ih (by split at hbound <;> omega)
    rw [Throttle.run_append_singleton]
    cases e with
    | call =>
      -- the count becomes one exactly at the first call of the period
      rw [callsSinceTick_append_call, if_neg (Nat.succ_ne_zero _)]
      show (if (Throttle.run maxEventsInPeriod es).currentEvents + 1 = 1 then _ else _) = 1
      have hone : (Throttle.run maxEventsInPeriod es).currentEvents + 1 = 1 ↔
          callsSinceTick es = 0 := by
        rw [hinv.currentEvents, ofNat_add_one, ← Int32.toInt_inj,
          Int32.toInt_ofNat_of_lt (by rw [if_pos rfl] at hbound; omega), Int32.toInt_one]
        omega
      by_cases h0 : callsSinceTick es = 0
      · rw [if_pos (hone.mpr h0), ih', if_pos h0]
      · rw [if_neg (fun h => h0 (hone.mp h)), ih', if_neg h0]
    | tick =>
      rw [callsSinceTick_append_tick, if_pos rfl, Throttle.step_tick]
      unfold Throttle.tick
      split
      · rename_i h0
        exact h0
      · show (Throttle.run maxEventsInPeriod es).timers - 1 = 0
        split at ih' <;> omega

/-- **Answers by rank.** While fewer than `2 ^ 31` calls were made, a period with calls has
exactly one pending goroutine and one without has none, and the next call is answered by its
rank in the period: `Open` below the maximum, `Closing` at it, `Closed` above it. -/
theorem throttle_answers_by_rank (es : List ThrottleEvent) (hbound : es.count .call + 1 < 2 ^ 31) :
    (Throttle.run maxEventsInPeriod es).timers = (if callsSinceTick es = 0 then 0 else 1) ∧
      ((Throttle.run maxEventsInPeriod es).step maxEventsInPeriod .call).1 =
        .valve (valveOf maxEventsInPeriod.toInt (callsSinceTick es + 1)) := by
  have hle := callsSinceTick_le_count es
  refine ⟨timers_run maxEventsInPeriod es (by omega), ?_⟩
  rw [Throttle.step_call,
    shouldThrottle_fst_of_periodInv maxEventsInPeriod (periodInv_run maxEventsInPeriod es) (by omega)]

/-- Three calls, a tick, and a call. -/
def callsAroundTick : List ThrottleEvent :=
  [.call, .call, .call, .tick, .call]

/-- Against a maximum of two, the call after the tick is the first of its period. -/
theorem throttle_answers_by_rank_callsAroundTick :
    callsAroundTick.count .call + 1 < 2 ^ 31 ∧
      (Throttle.run 2 callsAroundTick).timers =
          (if callsSinceTick callsAroundTick = 0 then 0 else 1) ∧
        ((Throttle.run 2 callsAroundTick).step 2 .call).1 =
          .valve (valveOf (2 : Int32).toInt (callsSinceTick callsAroundTick + 1)) :=
  ⟨by decide, throttle_answers_by_rank 2 callsAroundTick (by decide)⟩

/-- What a tick calls back with, in a period of `n` calls, for a non-negative maximum. -/
theorem tick_fst {n : ℕ} {t : Throttle} (h : PeriodInv n t) (hn : n < 2 ^ 31)
    (hmax : 0 ≤ maxEventsInPeriod.toInt) :
    (t.tick maxEventsInPeriod).1 =
      if n ≤ maxEventsInPeriod.toInt.toNat then none
      else some (Int32.ofNat (n - maxEventsInPeriod.toInt.toNat)) := by
  have hint : (Int32.ofNat n).toInt = n := Int32.toInt_ofNat_of_lt hn
  unfold Throttle.tick
  split
  · -- no goroutine, so no call in the period
    rename_i h0
    have hn0 : n = 0 := by
      by_contra hn0
      have := h.pending hn0
      omega
    rw [if_pos (by omega)]
  · show (if t.currentEvents > maxEventsInPeriod then _ else none) = _
    rw [h.currentEvents]
    by_cases hle : n ≤ maxEventsInPeriod.toInt.toNat
    · have hngt : ¬Int32.ofNat n > maxEventsInPeriod := by
        rw [gt_iff_lt, Int32.lt_iff_toInt_lt, hint]
        omega
      rw [if_neg hngt, if_pos hle]
    · have hgt : Int32.ofNat n > maxEventsInPeriod := by
        rw [gt_iff_lt, Int32.lt_iff_toInt_lt, hint]
        omega
      rw [if_pos hgt, if_neg hle, Option.some.injEq, ← Int32.toInt_inj, Int32.toInt_sub, hint,
        Int32.toInt_ofNat_of_lt (by omega), Int.bmod_eq_of_le (by omega) (by omega)]
      omega

/-- The calls answered `Closed` in a period are those ranked above the maximum. -/
theorem closedSinceTick_outputs (hmax : 0 ≤ maxEventsInPeriod.toInt) (es : List ThrottleEvent)
    (hbound : es.count .call < 2 ^ 31) :
    closedSinceTick (outputs (Throttle.step maxEventsInPeriod) Throttle.newThrottle es) =
      callsSinceTick es - maxEventsInPeriod.toInt.toNat := by
  induction es using List.reverseRecOn with
  | nil => simp
  | append_singleton es e ih =>
    rw [count_call_append_singleton] at hbound
    have hle := callsSinceTick_le_count es
    have ih' := ih (by split at hbound <;> omega)
    rw [Throttle.outputs_append_singleton]
    cases e with
    | call =>
      rw [if_pos rfl] at hbound
      rw [Throttle.step_call, closedSinceTick_append_valve, ih', callsSinceTick_append_call,
        shouldThrottle_fst_of_periodInv maxEventsInPeriod (periodInv_run maxEventsInPeriod es) (by omega)]
      -- the call is `Closed` exactly when its rank is above the maximum
      by_cases hlt : maxEventsInPeriod.toInt < ↑(callsSinceTick es + 1)
      · rw [if_pos ((valveOf_eq_closed_iff _ _).mpr hlt)]
        omega
      · rw [if_neg (fun h => hlt ((valveOf_eq_closed_iff _ _).mp h))]
        omega
    | tick =>
      rw [Throttle.step_tick, closedSinceTick_append_callback, callsSinceTick_append_tick]
      omega

/-- **The throttled calls are reported.** For a non-negative maximum and fewer than `2 ^ 31`
calls, a tick calls `throttledCallBack` exactly when some call since the previous tick was
answered `Closed`, and with their number. -/
theorem throttle_reports_throttled_calls (hmax : 0 ≤ maxEventsInPeriod.toInt)
    (es : List ThrottleEvent) (hbound : es.count .call < 2 ^ 31) :
    ((Throttle.run maxEventsInPeriod es).step maxEventsInPeriod .tick).1 =
      .callback (if closedSinceTick (outputs (Throttle.step maxEventsInPeriod) Throttle.newThrottle es) = 0
        then none
        else some (Int32.ofNat
          (closedSinceTick (outputs (Throttle.step maxEventsInPeriod) Throttle.newThrottle es)))) := by
  have hle := callsSinceTick_le_count es
  rw [Throttle.step_tick, closedSinceTick_outputs maxEventsInPeriod hmax es hbound,
    tick_fst maxEventsInPeriod (periodInv_run maxEventsInPeriod es) (by omega) hmax]
  by_cases hn : callsSinceTick es ≤ maxEventsInPeriod.toInt.toNat
  · rw [if_pos hn, if_pos (by omega)]
  · rw [if_neg hn, if_neg (by omega)]

/-- Four calls in one period. -/
def fourCalls : List ThrottleEvent :=
  [.call, .call, .call, .call]

/-- Against a maximum of two, the tick after four calls reports the two `Closed` ones. -/
theorem throttle_reports_throttled_calls_fourCalls :
    0 ≤ (2 : Int32).toInt ∧ fourCalls.count .call < 2 ^ 31 ∧
      ((Throttle.run 2 fourCalls).step 2 .tick).1 =
        .callback (if closedSinceTick (outputs (Throttle.step 2) Throttle.newThrottle fourCalls) = 0
          then none
          else some (Int32.ofNat
            (closedSinceTick (outputs (Throttle.step 2) Throttle.newThrottle fourCalls)))) :=
  ⟨by decide, by decide, throttle_reports_throttled_calls 2 (by decide) fourCalls (by decide)⟩

end Bounded

/-! ### Overflow -/

/-- The count is kept in 32 bits: a period's calls count modulo `2 ^ 32`. -/
theorem int32_ofNat_mod (n : ℕ) : Int32.ofNat n = Int32.ofNat (n % 2 ^ 32) := by
  apply Int32.toBitVec_inj.mp
  show BitVec.ofNat 32 n = BitVec.ofNat 32 (n % 2 ^ 32)
  apply BitVec.eq_of_toNat_eq
  simp [BitVec.toNat_ofNat]

/-- **The count wraps.** In every run whose current period has had `2 ^ 31 - 1` calls, modulo
`2 ^ 32`, the next call makes the count `-2 ^ 31`, and is answered `Open` for any maximum above
it. -/
theorem throttle_reopens_after_wrap (maxEventsInPeriod : Int32)
    (hmax : Int32.minValue < maxEventsInPeriod) (es : List ThrottleEvent)
    (hcalls : callsSinceTick es % 2 ^ 32 = 2 ^ 31 - 1) :
    ((Throttle.run maxEventsInPeriod es).step maxEventsInPeriod .call).2.currentEvents =
        Int32.minValue ∧
      ((Throttle.run maxEventsInPeriod es).step maxEventsInPeriod .call).1 = .valve .opened := by
  have hwrap : (Throttle.run maxEventsInPeriod es).currentEvents + 1 = Int32.minValue := by
    rw [(periodInv_run maxEventsInPeriod es).currentEvents, int32_ofNat_mod, hcalls]
    decide +kernel
  refine ⟨hwrap, ?_⟩
  rw [Throttle.step_call, Throttle.shouldThrottle_fst, hwrap]
  -- `-2 ^ 31` is neither the maximum nor above it
  have hlt := Int32.lt_iff_toInt_lt.mp hmax
  have hne : Int32.minValue ≠ maxEventsInPeriod := fun h => by
    rw [← Int32.toInt_inj] at h
    omega
  have hngt : ¬Int32.minValue > maxEventsInPeriod := fun h => by
    rw [gt_iff_lt, Int32.lt_iff_toInt_lt] at h
    omega
  unfold Throttle.valve
  rw [if_neg hne, if_neg hngt]

/-- With a maximum of ten, a call and a tick, then `2 ^ 31 - 1` calls in the new period. -/
theorem throttle_reopens_after_wrap_ten :
    Int32.minValue < 10 ∧
      callsSinceTick ([.call, .tick] ++ List.replicate (2 ^ 31 - 1) .call) % 2 ^ 32 = 2 ^ 31 - 1 ∧
      ((Throttle.run 10 ([.call, .tick] ++ List.replicate (2 ^ 31 - 1) .call)).step 10
          .call).2.currentEvents = Int32.minValue ∧
      ((Throttle.run 10 ([.call, .tick] ++ List.replicate (2 ^ 31 - 1) .call)).step 10 .call).1 =
        .valve .opened :=
  have hcalls : callsSinceTick ([.call, .tick] ++ List.replicate (2 ^ 31 - 1) .call) % 2 ^ 32 =
      2 ^ 31 - 1 := by
    rw [callsSinceTick_append_replicate]
    rfl
  ⟨by decide, hcalls, throttle_reopens_after_wrap 10 (by decide) _ hcalls⟩

end ProtoActor.Actor
