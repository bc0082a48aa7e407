import Mathlib.Data.Int.Notation
import Mathlib.Data.List.Induction
import ProtoActor.Actor.ActorContext

/-!
# Supervisor strategies

`actor/supervision.go`, `actor/directive.go`, `actor/child_restart_stats.go` and the strategies
of `actor/strategy_one_for_one.go`, `actor/strategy_all_for_one.go`,
`actor/strategy_exponential_backoff.go` and `actor/strategy_restarting.go`.

A failing actor escalates a `Failure` to its parent, carrying its own `RestartStatistics`: the
instants of the failures counted against it, which the parent's strategy reads and changes.  A
strategy's `HandleFailure` asks its decider for a `Directive` and calls the parent as a
`Supervisor`: resume, restart or stop children, or escalate.  Its outcome here is the
`SupervisorDecision` of the context model (`ActorContext.lean`), with the directive `logFailure`
publishes and, for the exponential backoff, the delay of the `time.AfterFunc` that restarts.

Instants and durations are nanoseconds in `ℤ`, an instant being the monotonic reading of
`time.Now()`.  A strategy reads the clock twice for a failure: `Fail` stamps the failure with one
reading, and `NumberOfFailures` reads the clock again to count the failures within its window;
the one-for-one and all-for-one strategies call them in that order, the exponential backoff in
the other.  `FailureAt` carries both readings.  `currTime.Sub(t)` saturates at the bounds of a
`Duration`, which changes no comparison with a window that is itself a `Duration`, so the window
is compared in `ℤ`.  The backoff's delay `FailureCount() * initialBackoff + noise` is computed in
Go's 64-bit `int` and wraps.  The supervisor handles the failures of a child one at a time, from
its mailbox: `superviseAll` runs them.

* `restart_intensity_bounded`: the one-for-one and the all-for-one strategy restart a child at
  most `maxNrOfRetries` times within any `withinDuration` that holds no stop, whatever the
  decider answers.  The statistics hold the instant of every restart since the last stop
  (`Budget.recorded`), and a restart is only decided when they count at most
  `maxNrOfRetries` failures within the window at its second reading of the clock; the window
  only loses failures as the clock advances (`counted_of_le`).
* `backoff_delay_grows_with_burst`: the exponential backoff restarts the child after
  `initialBackoff` times the length of the current burst of failures, plus the noise, wrapped to
  64 bits: the burst is the last failure and each one before it whose stamp the next failure's
  count read within `backoffWindow` (`burstLength`).  The delay grows linearly with the burst
  until the product leaves the range of an `int64`.
-/

namespace ProtoActor.Actor

/-- `Directive`, in `iota` order. -/
inductive Directive
  | resume
  | restart
  | stop
  | escalate
  deriving DecidableEq, Repr

/-- `RestartStatistics`: the instants of the failures counted against an actor. -/
structure RestartStatistics where
  failureTimes : List ℤ
  deriving DecidableEq, Repr

namespace RestartStatistics

/-- `NewRestartStatistics`. -/
def newRestartStatistics : RestartStatistics :=
  ⟨[]⟩

/-- `FailureCount`. -/
def failureCount (rs : RestartStatistics) : ℕ :=
  rs.failureTimes.length

/-- `Fail`: count a failure at `now`. -/
def fail (rs : RestartStatistics) (now : ℤ) : RestartStatistics :=
  ⟨rs.failureTimes ++ [now]⟩

/-- `Reset`. -/
def reset (_ : RestartStatistics) : RestartStatistics :=
  ⟨[]⟩

/-- `NumberOfFailures`: the failures less than `withinDuration` before `now`, all of them for a
zero duration. -/
def numberOfFailures (rs : RestartStatistics) (withinDuration now : ℤ) : ℕ :=
  if withinDuration = 0 then rs.failureTimes.length
  else rs.failureTimes.countP (fun t => now - t < withinDuration)

/-- Whether `NumberOfFailures` at `now` counts a failure at `t`. -/
def counted (withinDuration now t : ℤ) : Bool :=
  withinDuration = 0 || decide (now - t < withinDuration)

@[simp] theorem failureTimes_fail (rs : RestartStatistics) (now : ℤ) :
    (rs.fail now).failureTimes = rs.failureTimes ++ [now] := rfl

@[simp] theorem failureTimes_reset (rs : RestartStatistics) : rs.reset.failureTimes = [] := rfl

theorem numberOfFailures_eq_countP (rs : RestartStatistics) (withinDuration now : ℤ) :
    rs.numberOfFailures withinDuration now = rs.failureTimes.countP (counted withinDuration now) := by
  unfold numberOfFailures counted
  by_cases h : withinDuration = 0
  · simp [h]
  · simp [h]

/-- A failure counted at `t` is counted at every earlier `now`: the window only loses failures as
the clock advances. -/
theorem counted_of_le {withinDuration now t x : ℤ} (h : now ≤ t)
    (hx : counted withinDuration t x = true) : counted withinDuration now x = true := by
  simp only [counted, Bool.or_eq_true, decide_eq_true_eq] at hx ⊢
  omega

end RestartStatistics

open RestartStatistics

/-- What a strategy's `HandleFailure` does: the directive `logFailure` publishes for the child,
if any, the call it makes on the supervisor, and the delay of the `time.AfterFunc` that makes
the call later, if it does. -/
structure Handling where
  logged : Option Directive
  decision : SupervisorDecision
  delay : Option Int64
  deriving DecidableEq, Repr

namespace Handling

/-- The call restarts children. -/
def restarts (o : Handling) : Bool :=
  match o.decision with
  | .children (.restartChildren _) => true
  | _ => false

/-- The call stops children. -/
def stops (o : Handling) : Bool :=
  match o.decision with
  | .children (.stopChildren _) => true
  | _ => false

end Handling

/-- The fields of `oneForOneStrategy` and `allForOneStrategy`. -/
structure RetryStrategy (μ : Type) where
  maxNrOfRetries : ℤ
  withinDuration : ℤ
  decider : μ → Directive

/-- The strategies of the package, by the struct that implements `SupervisorStrategy`. -/
inductive SupervisorStrategy (μ : Type)
  | oneForOne (st : RetryStrategy μ)
  | allForOne (st : RetryStrategy μ)
  | exponentialBackoff (backoffWindow : ℤ) (initialBackoff : Int64)
  | restarting

namespace RetryStrategy

variable {μ : Type} (st : RetryStrategy μ)

/-- `shouldStop`, the same method in both strategies: never restart when `maxNrOfRetries` is
zero; else count this failure, stamped at `failedAt`, and stop, resetting the statistics, once
more than `maxNrOfRetries` fall within `withinDuration` of `countedAt`. -/
def shouldStop (rs : RestartStatistics) (failedAt countedAt : ℤ) : Bool × RestartStatistics :=
  if st.maxNrOfRetries = 0 then (true, rs)
  else
    let rs := rs.fail failedAt
    if st.maxNrOfRetries < rs.numberOfFailures st.withinDuration countedAt then (true, rs.reset)
    else (false, rs)

/-- `HandleFailure` of both strategies, whose restart and stop act on `targets`: the failing
child for the one-for-one strategy, every child for the all-for-one. -/
def handleFailureOn (targets : List PID) (child : PID) (rs : RestartStatistics) (reason : μ)
    (failedAt countedAt : ℤ) : Handling × RestartStatistics :=
  match st.decider reason with
  | .resume => (⟨some .resume, .children (.resumeChildren [child]), none⟩, rs)
  | .restart =>
    let r := st.shouldStop rs failedAt countedAt
    if r.1 then (⟨some .stop, .children (.stopChildren targets), none⟩, r.2)
    else (⟨some .restart, .children (.restartChildren targets), none⟩, r.2)
  | .stop => (⟨some .stop, .children (.stopChildren targets), none⟩, rs)
  -- escalating is logged by the parent that handles it
  | .escalate => (⟨none, .escalate, none⟩, rs)

/-- What one failure can do to the statistics under either strategy: nothing, with no restart
and no stop (resume, escalate); anything, with a stop; or count the failure, with a restart
decided only while the failures within the window are at most `maxNrOfRetries`. -/
def RetryStep (rs : RestartStatistics) (failedAt countedAt : ℤ) (r : Handling × RestartStatistics) :
    Prop :=
  (r.1.restarts = false ∧ r.1.stops = false ∧ r.2 = rs) ∨ r.1.stops = true ∨
    (r.1.restarts = true ∧ r.1.stops = false ∧ r.2 = rs.fail failedAt ∧
      ((rs.fail failedAt).numberOfFailures st.withinDuration countedAt : ℤ) ≤ st.maxNrOfRetries)

theorem retryStep_handleFailureOn (targets : List PID) (child : PID) (rs : RestartStatistics)
    (reason : μ) (failedAt countedAt : ℤ) :
    st.RetryStep rs failedAt countedAt
      (st.handleFailureOn targets child rs reason failedAt countedAt) := by
  unfold handleFailureOn
  split
  · -- resume
    exact .inl ⟨rfl, rfl, rfl⟩
  · -- restart: `shouldStop` decides
    unfold shouldStop
    by_cases h0 : st.maxNrOfRetries = 0
    · exact .inr (.inl (by simp [h0, Handling.stops]))
    · by_cases hmax : st.maxNrOfRetries <
          ((rs.fail failedAt).numberOfFailures st.withinDuration countedAt : ℤ)
      · exact .inr (.inl (by simp [h0, hmax, Handling.stops]))
      · refine .inr (.inr ?_)
        exact ⟨by simp [h0, hmax, Handling.restarts], by simp [h0, hmax, Handling.stops],
          by simp [h0, hmax], Int.not_lt.mp hmax⟩
  · -- stop
    exact .inr (.inl rfl)
  · -- escalate
    exact .inl ⟨rfl, rfl, rfl⟩

end RetryStrategy

namespace SupervisorStrategy

variable {μ : Type}

/-- `setFailureCount` of the exponential backoff: start over when no failure falls within
`backoffWindow` of `countedAt`, then count this one, stamped at `failedAt`. -/
def setFailureCount (backoffWindow : ℤ) (rs : RestartStatistics) (failedAt countedAt : ℤ) :
    RestartStatistics :=
  let rs := if rs.numberOfFailures backoffWindow countedAt = 0 then rs.reset else rs
  rs.fail failedAt

/-- `HandleFailure` of each strategy, for a failure of `child` whose `Fail` reads the clock at
`failedAt` and whose `NumberOfFailures` reads it at `countedAt`, where `children` are the
supervisor's `Children()` and `noise` is the draw of `rand.Intn(500)`.  The backoff is computed
in `int`, 64 bits wide. -/
def handleFailure : SupervisorStrategy μ → List PID → PID → RestartStatistics → μ → ℤ → ℤ →
    Int64 → Handling × RestartStatistics
  | .oneForOne st, _, child, rs, reason, failedAt, countedAt, _ =>
    st.handleFailureOn [child] child rs reason failedAt countedAt
  | .allForOne st, children, child, rs, reason, failedAt, countedAt, _ =>
    st.handleFailureOn children child rs reason failedAt countedAt
  | .exponentialBackoff backoffWindow initialBackoff, _, child, rs, _, failedAt, countedAt, noise =>
    let rs := setFailureCount backoffWindow rs failedAt countedAt
    let backoff := Int64.ofNat rs.failureCount * initialBackoff
    (⟨some .restart, .children (.restartChildren [child]), some (backoff + noise)⟩, rs)
  | .restarting, _, child, rs, _, _, _, _ =>
    (⟨some .restart, .children (.restartChildren [child]), none⟩, rs)

/-- `NewOneForOneStrategy`. -/
def newOneForOneStrategy (maxNrOfRetries withinDuration : ℤ) (decider : μ → Directive) :
    SupervisorStrategy μ :=
  .oneForOne ⟨maxNrOfRetries, withinDuration, decider⟩

/-- `NewAllForOneStrategy`. -/
def newAllForOneStrategy (maxNrOfRetries withinDuration : ℤ) (decider : μ → Directive) :
    SupervisorStrategy μ :=
  .allForOne ⟨maxNrOfRetries, withinDuration, decider⟩

/-- `NewExponentialBackoffStrategy`. -/
def newExponentialBackoffStrategy (backoffWindow : ℤ) (initialBackoff : Int64) :
    SupervisorStrategy μ :=
  .exponentialBackoff backoffWindow initialBackoff

/-- `NewRestartingStrategy`. -/
def newRestartingStrategy : SupervisorStrategy μ :=
  .restarting

/-- `DefaultDecider`: always restart. -/
def defaultDecider (_ : μ) : Directive :=
  .restart

/-- `DefaultSupervisorStrategy`: one for one, ten restarts within ten seconds. -/
def defaultSupervisorStrategy : SupervisorStrategy μ :=
  newOneForOneStrategy 10 10000000000 defaultDecider

/-! ### Supervising one child -/

/-- A failure of the child as its supervisor handles it: the instants `time.Now()` reads in `Fail`
and in `NumberOfFailures`, the supervisor's children, the reason, and the draw of
`rand.Intn(500)`. -/
structure FailureAt (μ : Type) where
  failedAt : ℤ
  countedAt : ℤ
  children : List PID
  reason : μ
  noise : Int64

/-- The child's restart statistics, and each failure handled so far with its outcome. -/
structure Supervised (μ : Type) where
  stats : RestartStatistics
  handled : List (FailureAt μ × Handling)

/-- The supervisor handles one failure of `child`. -/
def supervise (s : SupervisorStrategy μ) (child : PID) (sv : Supervised μ) (f : FailureAt μ) :
    Supervised μ :=
  let r := s.handleFailure f.children child sv.stats f.reason f.failedAt f.countedAt f.noise
  ⟨r.2, sv.handled ++ [(f, r.1)]⟩

/-- The failures `fs` of `child`, handled in turn from the statistics `restartStats()` creates. -/
def superviseAll (s : SupervisorStrategy μ) (child : PID) (fs : List (FailureAt μ)) :
    Supervised μ :=
  Transition.runFrom (supervise s child) ⟨newRestartStatistics, []⟩ fs

theorem superviseAll_append_singleton (s : SupervisorStrategy μ) (child : PID)
    (fs : List (FailureAt μ)) (f : FailureAt μ) :
    superviseAll s child (fs ++ [f]) = supervise s child (superviseAll s child fs) f := by
  simp [superviseAll, Transition.runFrom_append]

/-- Each failure handled is recorded, in order. -/
theorem handled_map_fst (s : SupervisorStrategy μ) (child : PID) (fs : List (FailureAt μ)) :
    (superviseAll s child fs).handled.map (·.1) = fs := by
  induction fs using List.reverseRecOn with
  | nil => rfl
  | append_singleton fs f ih =>
    rw [superviseAll_append_singleton]
    simp [supervise, ih]

/-! ### The restart budget of the one-for-one and all-for-one strategies -/

/-- The instants `Fail` stamped the restarts among handled failures with. -/
def restartInstants (hs : List (FailureAt μ × Handling)) : List ℤ :=
  (hs.filter (·.2.restarts)).map (·.1.failedAt)

/-- Handled failures none of which stopped children. -/
def StopFree (hs : List (FailureAt μ × Handling)) : Prop :=
  ∀ p ∈ hs, p.2.stops = false

theorem restartInstants_append_singleton (hs : List (FailureAt μ × Handling))
    (p : FailureAt μ × Handling) :
    restartInstants (hs ++ [p]) = restartInstants hs ++ if p.2.restarts then [p.1.failedAt] else [] := by
  unfold restartInstants
  cases h : p.2.restarts <;> simp [List.filter_append, h]

theorem stopFree_append_singleton {hs : List (FailureAt μ × Handling)} {p : FailureAt μ × Handling} :
    StopFree (hs ++ [p]) ↔ StopFree hs ∧ p.2.stops = false := by
  simp [StopFree, or_imp, forall_and]

theorem countP_restarts (hs : List (FailureAt μ × Handling)) (q : ℤ → Bool) :
    hs.countP (fun p => p.2.restarts && q p.1.failedAt) = (restartInstants hs).countP q := by
  rw [restartInstants, List.countP_map, List.countP_filter]
  congr 1
  funext p
  simp [Bool.and_comm]

/-- A suffix of a log extended by one entry is a suffix of the log extended by it, or empty. -/
theorem drop_append_singleton {α : Type} (l : List α) (x : α) (k : ℕ) :
    (l ++ [x]).drop k = l.drop k ++ [x] ∨ (l ++ [x]).drop k = [] := by
  rcases Nat.lt_or_ge l.length k with h | h
  · exact .inr (List.drop_eq_nil_of_le (by simp; omega))
  · exact .inl (List.drop_append_of_le_length h)

/-- The invariant of the restart budget: after the last stop, every restart is among the
statistics, and no `withinDuration` before an instant after every count so far holds more than
`maxNrOfRetries` of them. -/
structure Budget (st : RetryStrategy μ) (sv : Supervised μ) : Prop where
  recorded : ∀ k, StopFree (sv.handled.drop k) →
    (restartInstants (sv.handled.drop k)).Sublist sv.stats.failureTimes
  bounded : ∀ k, StopFree (sv.handled.drop k) → ∀ t, (∀ p ∈ sv.handled, p.1.countedAt ≤ t) →
    (restartInstants (sv.handled.drop k)).countP (counted st.withinDuration t) ≤
      st.maxNrOfRetries.toNat

theorem budget_init (st : RetryStrategy μ) : Budget st ⟨newRestartStatistics, []⟩ :=
  ⟨fun _ _ => by simp [restartInstants], fun _ _ _ _ => by simp [restartInstants]⟩

/-- **One failure keeps the budget.** -/
theorem Budget.handled_append {st : RetryStrategy μ} {sv : Supervised μ} (h : Budget st sv)
    {f : FailureAt μ} {r : Handling × RestartStatistics}
    (hr : st.RetryStep sv.stats f.failedAt f.countedAt r) :
    Budget st ⟨r.2, sv.handled ++ [(f, r.1)]⟩ := by
  obtain ⟨o, rs⟩ := r
  constructor
  · intro k hk
    rcases drop_append_singleton sv.handled (f, o) k with hd | hd
    · simp only [hd, stopFree_append_singleton] at hk ⊢
      rw [restartInstants_append_singleton]
      rcases hr with ⟨hre, -, rfl⟩ | hst | ⟨hre, -, rfl, -⟩
      · -- resume or escalate: nothing new to record
        simpa [hre] using h.recorded k hk.1
      · simp [hst] at hk
      · -- restart: its instant is the one `Fail` appended
        simpa [hre] using (h.recorded k hk.1).append (List.Sublist.refl [f.failedAt])
    · simp [hd, restartInstants]
  · intro k hk t ht
    rcases drop_append_singleton sv.handled (f, o) k with hd | hd
    · simp only [hd, stopFree_append_singleton] at hk ht ⊢
      have hold : ∀ p ∈ sv.handled, p.1.countedAt ≤ t :=
        fun p hp => ht p (List.mem_append_left _ hp)
      have hcount : f.countedAt ≤ t :=
        ht (f, o) (List.mem_append_right _ (List.mem_singleton_self _))
      rw [restartInstants_append_singleton]
      rcases hr with ⟨hre, -, -⟩ | hst | ⟨hre, -, -, hnum⟩
      · simpa [hre] using h.bounded k hk.1 t hold
      · simp [hst] at hk
      · -- restart: the restarts since the last stop are among the failures `NumberOfFailures`
        -- counted at its reading, which is no later than `t`
        simp only [hre, if_true]
        have hsub := (h.recorded k hk.1).append (List.Sublist.refl [f.failedAt])
        calc (restartInstants (sv.handled.drop k) ++ [f.failedAt]).countP
              (counted st.withinDuration t)
            ≤ (restartInstants (sv.handled.drop k) ++ [f.failedAt]).countP
                (counted st.withinDuration f.countedAt) :=
              List.countP_mono_left (fun x _ hx => counted_of_le hcount hx)
          _ ≤ (sv.stats.failureTimes ++ [f.failedAt]).countP
                (counted st.withinDuration f.countedAt) :=
              hsub.countP_le
          _ = (sv.stats.fail f.failedAt).numberOfFailures st.withinDuration f.countedAt := by
              rw [numberOfFailures_eq_countP, failureTimes_fail]
          _ ≤ st.maxNrOfRetries.toNat := by omega
    · simp [hd, restartInstants]

theorem budget_superviseAll {st : RetryStrategy μ} {s : SupervisorStrategy μ}
    (hs : s = .oneForOne st ∨ s = .allForOne st) (child : PID) (fs : List (FailureAt μ)) :
    Budget st (superviseAll s child fs) := by
  refine Transition.runFrom_induction (fun sv f h => ?_) (budget_init st) fs
  rcases hs with rfl | rfl
  · exact h.handled_append (st.retryStep_handleFailureOn _ _ _ _ _ _)
  · exact h.handled_append (st.retryStep_handleFailureOn _ _ _ _ _ _)

/-- **The restart budget.** Over any run of failures of a child, handled by a one-for-one or an
all-for-one strategy, and from any point after which no failure was answered by a stop, the
restarts stamped less than `withinDuration` before any instant `t` that no reading of the clock
by `NumberOfFailures` comes after (every restart, for a zero duration) number at most
`maxNrOfRetries`, and none when it is not positive. -/
theorem restart_intensity_bounded (st : RetryStrategy μ) (s : SupervisorStrategy μ)
    (hs : s = .oneForOne st ∨ s = .allForOne st) (child : PID) (fs : List (FailureAt μ))
    (k : ℕ) (hk : ∀ p ∈ (superviseAll s child fs).handled.drop k, p.2.stops = false)
    (t : ℤ) (ht : ∀ f ∈ fs, f.countedAt ≤ t) :
    ((superviseAll s child fs).handled.drop k).countP
        (fun p => p.2.restarts && counted st.withinDuration t p.1.failedAt) ≤
      st.maxNrOfRetries.toNat := by
  have hinst : ∀ p ∈ (superviseAll s child fs).handled, p.1.countedAt ≤ t := by
    intro p hp
    have hmem : p.1 ∈ fs := by
      rw [← handled_map_fst s child fs]
      exact List.mem_map_of_mem hp
    exact ht p.1 hmem
  rw [countP_restarts]
  exact (budget_superviseAll hs child fs).bounded k hk t hinst

/-- Ten failures of a child, a second apart, each counted a nanosecond after `Fail` stamped it. -/
def failuresSecondApart : List (FailureAt Unit) :=
  (List.range 10).map fun i => ⟨1000000000 * i, 1000000000 * i + 1, [], (), 0⟩

/-- Under the default strategy the ten failures a second apart are ten restarts, all within
ten seconds of the last count: the budget is reached, not exceeded. -/
theorem restart_intensity_bounded_default :
    ((defaultSupervisorStrategy : SupervisorStrategy Unit) =
          .oneForOne ⟨10, 10000000000, defaultDecider⟩ ∨
        (defaultSupervisorStrategy : SupervisorStrategy Unit) =
          .allForOne ⟨10, 10000000000, defaultDecider⟩) ∧
      (∀ p ∈ (superviseAll defaultSupervisorStrategy ⟨"nonhost", "$1", 0⟩
          failuresSecondApart).handled.drop 0, p.2.stops = false) ∧
      (∀ f ∈ failuresSecondApart, f.countedAt ≤ 9000000001) ∧
      ((superviseAll defaultSupervisorStrategy ⟨"nonhost", "$1", 0⟩
          failuresSecondApart).handled.drop 0).countP
        (fun p => p.2.restarts && counted 10000000000 9000000001 p.1.failedAt) ≤ 10 ∧
      ((superviseAll defaultSupervisorStrategy ⟨"nonhost", "$1", 0⟩
          failuresSecondApart).handled.drop 0).countP
        (fun p => p.2.restarts && counted 10000000000 9000000001 p.1.failedAt) = 10 :=
  have hs : ((defaultSupervisorStrategy : SupervisorStrategy Unit) =
        .oneForOne ⟨10, 10000000000, defaultDecider⟩ ∨
      (defaultSupervisorStrategy : SupervisorStrategy Unit) =
        .allForOne ⟨10, 10000000000, defaultDecider⟩) :=
    .inl rfl
  have hk : ∀ p ∈ (superviseAll defaultSupervisorStrategy ⟨"nonhost", "$1", 0⟩
      failuresSecondApart).handled.drop 0, p.2.stops = false := by decide +kernel
  have ht : ∀ f ∈ failuresSecondApart, f.countedAt ≤ 9000000001 := by decide
  ⟨hs, hk, ht, restart_intensity_bounded _ _ hs _ _ 0 hk _ ht, by decide +kernel⟩

/-! ### The exponential backoff -/

/-- The length of the burst of failures that `fs` ends with: the last one, and before it each
one whose stamp the next failure's `NumberOfFailures` read within `backoffWindow` (every one,
for a zero window). -/
def burstLength (backoffWindow : ℤ) (fs : List (FailureAt μ)) : ℕ :=
  ((fs.zip fs.tail).reverse.takeWhile
    (fun p => backoffWindow = 0 ∨ p.2.countedAt - p.1.failedAt < backoffWindow)).length + 1

/-- The consecutive pairs of a list extended by one entry end with the pair its old last entry
makes with it. -/
theorem zip_tail_append_singleton {α : Type} :
    ∀ (ts : List α) (h : ts ≠ []) (x : α),
      (ts ++ [x]).zip (ts ++ [x]).tail = ts.zip ts.tail ++ [(ts.getLast h, x)]
  | [_], _, _ => rfl
  | a :: b :: rest, _, x => by
    have ih := zip_tail_append_singleton (b :: rest) (List.cons_ne_nil _ _) x
    simp only [List.cons_append, List.tail_cons, List.zip_cons_cons, List.getLast_cons_cons] at ih ⊢
    rw [ih]

theorem burstLength_append_singleton (backoffWindow : ℤ) {fs : List (FailureAt μ)} (h : fs ≠ [])
    (f : FailureAt μ) :
    burstLength backoffWindow (fs ++ [f]) =
      if backoffWindow = 0 ∨ f.countedAt - (fs.getLast h).failedAt < backoffWindow then
        burstLength backoffWindow fs + 1
      else 1 := by
  unfold burstLength
  rw [zip_tail_append_singleton fs h f, List.reverse_append]
  by_cases hc : backoffWindow = 0 ∨ f.countedAt - (fs.getLast h).failedAt < backoffWindow
  · simp [hc]
  · simp [hc]

/-- Against statistics whose latest failure is at `last`, no failure is counted at `now` exactly
when `last` is not. -/
theorem numberOfFailures_eq_zero_iff {rs : RestartStatistics} {w now last : ℤ}
    (hlast : last ∈ rs.failureTimes) (hle : ∀ t ∈ rs.failureTimes, t ≤ last) :
    rs.numberOfFailures w now = 0 ↔ ¬(w = 0 ∨ now - last < w) := by
  rw [numberOfFailures_eq_countP, List.countP_eq_zero]
  constructor
  · intro h hc
    have := h last hlast
    simp only [counted, Bool.or_eq_true, decide_eq_true_eq] at this
    exact this hc
  · intro hc t ht
    have := hle t ht
    simp only [counted, Bool.or_eq_true, decide_eq_true_eq]
    omega

/-- **One failure of the exponential backoff.** Statistics that hold the burst the failures `fs`
end with hold, after a failure `f` stamped no earlier than any of them, the burst of
`fs ++ [f]`. -/
theorem setFailureCount_burst {w : ℤ} {fs : List (FailureAt μ)} {rs : RestartStatistics}
    {f : FailureAt μ} (hsorted : ((fs ++ [f]).map (·.failedAt)).Pairwise (· ≤ ·))
    (hsuf : rs.failureTimes.IsSuffix (fs.map (·.failedAt)))
    (hlen : fs ≠ [] → rs.failureCount = burstLength w fs) :
    (setFailureCount w rs f.failedAt f.countedAt).failureTimes.IsSuffix
        ((fs ++ [f]).map (·.failedAt)) ∧
      (setFailureCount w rs f.failedAt f.countedAt).failureCount = burstLength w (fs ++ [f]) := by
  rcases List.eq_nil_or_concat fs with rfl | ⟨fs', g, rfl⟩
  · -- the first failure: nothing to count, the statistics start over
    have hnil : rs.failureTimes = [] := List.eq_nil_of_suffix_nil hsuf
    simp [setFailureCount, numberOfFailures, hnil, failureCount, burstLength]
  · -- the statistics end with `g`'s stamp, the latest one, and hold no later one
    rw [List.concat_eq_append] at hsorted hsuf hlen ⊢
    simp only [List.map_append, List.map_singleton] at hsorted hsuf ⊢
    have hne : fs' ++ [g] ≠ [] := by simp
    have hlen' := hlen hne
    have hpw : (fs'.map (·.failedAt) ++ [g.failedAt]).Pairwise (· ≤ ·) :=
      (List.pairwise_append.mp hsorted).1
    have hle : ∀ t ∈ rs.failureTimes, t ≤ g.failedAt := by
      intro t ht
      rcases List.mem_append.mp (hsuf.subset ht) with ht' | ht'
      · exact (List.pairwise_append.mp hpw).2.2 t ht' g.failedAt (List.mem_singleton_self _)
      · exact Int.le_of_eq (List.mem_singleton.mp ht')
    have hrs : rs.failureTimes ≠ [] := by
      intro h
      simp [failureCount, h, burstLength] at hlen'
    have hlast : g.failedAt ∈ rs.failureTimes := by
      have hget := hsuf.getLast hrs
      rw [List.getLast_append_singleton] at hget
      exact hget ▸ List.getLast_mem hrs
    have hgl : (fs' ++ [g]).getLast hne = g := List.getLast_append_singleton _
    by_cases hc : w = 0 ∨ f.countedAt - g.failedAt < w
    · -- `g` is counted: the burst goes on
      have h0 : rs.numberOfFailures w f.countedAt ≠ 0 :=
        fun h => (numberOfFailures_eq_zero_iff hlast hle).mp h hc
      simp only [setFailureCount, h0, if_false, failureTimes_fail]
      refine ⟨List.suffix_append_self_iff.mpr hsuf, ?_⟩
      rw [burstLength_append_singleton w hne f, hgl, if_pos hc, ← hlen']
      simp [failureCount]
    · -- no failure is counted: the statistics start over
      have h0 : rs.numberOfFailures w f.countedAt = 0 :=
        (numberOfFailures_eq_zero_iff hlast hle).mpr hc
      simp only [setFailureCount, h0, if_true, failureTimes_fail, failureTimes_reset,
        List.nil_append]
      refine ⟨List.suffix_append _ _, ?_⟩
      rw [burstLength_append_singleton w hne f, hgl, if_neg hc]
      rfl

/-- The statistics of the exponential backoff after failures stamped in time order hold the
burst the failures end with. -/
theorem burst_superviseAll (backoffWindow : ℤ) (initialBackoff : Int64) (child : PID)
    (fs : List (FailureAt μ)) (hsorted : (fs.map (·.failedAt)).Pairwise (· ≤ ·)) :
    (superviseAll (.exponentialBackoff backoffWindow initialBackoff) child fs).stats.failureTimes.IsSuffix
        (fs.map (·.failedAt)) ∧
      (fs ≠ [] → (superviseAll (.exponentialBackoff backoffWindow initialBackoff) child fs).stats.failureCount =
        burstLength backoffWindow fs) := by
  induction fs using List.reverseRecOn with
  | nil => simp [superviseAll, newRestartStatistics]
  | append_singleton fs f ih =>
    have ih := ih (by
      rw [List.map_append] at hsorted
      exact (List.pairwise_append.mp hsorted).1)
    rw [superviseAll_append_singleton]
    have h := setFailureCount_burst hsorted ih.1 ih.2
    exact ⟨h.1, fun _ => h.2⟩

/-- Go's `int` arithmetic of the delay is the integer one, wrapped to 64 bits. -/
theorem ofNat_mul_add_eq_ofInt (n : ℕ) (b c : Int64) :
    Int64.ofNat n * b + c = Int64.ofInt (n * b.toInt + c.toInt) := by
  rw [Int64.ofInt_add, Int64.ofInt_mul, Int64.ofInt_toInt, Int64.ofInt_toInt]
  rfl

/-- **The backoff grows linearly with the burst, in 64 bits.** Over any run of failures of a child
stamped in time order, the exponential backoff answers each failure with a `Restart` published
and the child alone restarted after `initialBackoff` times the length of the burst the failure
ends, plus the noise, wrapped to an `int64`. -/
theorem backoff_delay_grows_with_burst (backoffWindow : ℤ) (initialBackoff : Int64) (child : PID)
    (fs : List (FailureAt μ)) (f : FailureAt μ)
    (hsorted : ((fs ++ [f]).map (·.failedAt)).Pairwise (· ≤ ·)) :
    (superviseAll (.exponentialBackoff backoffWindow initialBackoff) child (fs ++ [f])).handled.getLast? =
      some (f, ⟨some .restart, .children (.restartChildren [child]),
        some (Int64.ofInt (burstLength backoffWindow (fs ++ [f]) * initialBackoff.toInt +
          f.noise.toInt))⟩) := by
  have hcount := (burst_superviseAll backoffWindow initialBackoff child (fs ++ [f]) hsorted).2
    (by simp)
  rw [superviseAll_append_singleton] at hcount ⊢
  rw [← hcount, ← ofNat_mul_add_eq_ofInt]
  simp [supervise, handleFailure]

/-- Failures stamped at 0 and 100 against a window of 200, with an initial backoff of `2 ^ 62`
nanoseconds: the burst is two, and the delay `2 ^ 63 + 3` wraps to a negative duration, with
which `time.AfterFunc` restarts the child at once. -/
theorem backoff_delay_grows_with_burst_wraps :
    (([⟨0, 0, [], (), 7⟩] ++ [⟨100, 100, [], (), 3⟩] : List (FailureAt Unit)).map
        (·.failedAt)).Pairwise (· ≤ ·) ∧
      (superviseAll (.exponentialBackoff 200 4611686018427387904) ⟨"nonhost", "$1", 0⟩
          ([⟨0, 0, [], (), 7⟩] ++ [⟨100, 100, [], (), 3⟩])).handled.getLast? =
        some (⟨100, 100, [], (), 3⟩, ⟨some .restart,
          .children (.restartChildren [⟨"nonhost", "$1", 0⟩]),
          some (Int64.ofInt (burstLength 200 ([⟨0, 0, [], (), 7⟩] ++ [⟨100, 100, [], (), 3⟩] :
            List (FailureAt Unit)) * (4611686018427387904 : Int64).toInt + (3 : Int64).toInt))⟩) ∧
      burstLength 200 ([⟨0, 0, [], (), 7⟩] ++ [⟨100, 100, [], (), 3⟩] : List (FailureAt Unit)) = 2 ∧
      (Int64.ofInt (2 * (4611686018427387904 : Int64).toInt + (3 : Int64).toInt)).toInt < 0 :=
  have hsorted : (([⟨0, 0, [], (), 7⟩] ++ [⟨100, 100, [], (), 3⟩] :
      List (FailureAt Unit)).map (·.failedAt)).Pairwise (· ≤ ·) := by decide
  ⟨hsorted, backoff_delay_grows_with_burst 200 4611686018427387904 _ _ _ hsorted, by decide,
    by decide⟩

end SupervisorStrategy

end ProtoActor.Actor
