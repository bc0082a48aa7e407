import ProtoActor.Transition.Run

/-!
# The batching producer

`cluster/pubsub_producer.go`.  `Produce` writes a message, with a fresh `ProduceProcessInfo`,
into the producer's channel, bounded (`MaxQueueSize > 0`) or not; the publish loop, a goroutine
of its own, reads the channel into a batch and hands the batch to `PublishBatch` when it holds
`BatchSize` messages or the channel is empty.  Each info is finished by closing its `Finished`
channel: by `success` when its batch was published, by `setErr` when a publishing error fails
it, by `cancel` when its context was cancelled or the producer is disposed.

The producer is a state machine over the events of its goroutines and of the outside world, each
atomic: a `Produce` call, the cancellation of a message's context, `Dispose`'s cancelling of the
loop, and one turn of the loop, resolved by the environment where the loop waits on it
(`Initialize`, each `PublishBatch` and the error handler's decision).  A turn of the loop that is
not enabled, such as a publishing turn while the loop waits to read, changes nothing.  The loop
drains the channel in one step: a message written during a drain is read by it.

Each close of `Finished` is recorded, so that closing twice (a panic in Go) is visible.  None
is closed twice in any run (`finished_closed_at_most_once`): the messages still owed a close, in
the channel and in the batch, are distinct and open, and every close takes one of them.

The bounded channel's `tryWrite` selects between the buffered send and the closed `quit`
channel when both are ready, and Go picks either.  So once the loop has stopped a `Produce` can
still be accepted, and nothing ever reads it: `produce_after_stop_never_finished`.
-/

namespace ProtoActor.Cluster

open ProtoActor.Transition

variable {μ : Type}

/-- How a `Finished` channel was closed: `success`, `setErr` or `cancel`. -/
inductive Finish
  | success
  | setErr
  | cancel
  deriving DecidableEq, Repr

/-- The decisions of `OnPublishingError`; the code tells them apart by pointer, and every
decision other than the two `Fail` ones retries, after its `Delay`. -/
inductive PublishingErrorDecision
  | failBatchAndStop
  | failBatchAndContinue
  | retryBatchAfter (delay : Nat)
  deriving DecidableEq, Repr

/-- What `PublishBatch` answers: success, or an error and the handler's decision on it. -/
inductive PublishOutcome
  | ok
  | error (decision : PublishingErrorDecision)
  deriving DecidableEq, Repr

/-- The error `Produce` returns with a message it did not accept. -/
inductive ProduceError
  | invalidOperation
  | producerQueueFull
  deriving DecidableEq, Repr

/-- A `ProduceProcessInfo`, with its message: whether its context is done, and every close of
`Finished` so far. -/
structure ProduceProcessInfo (μ : Type) where
  message : μ
  ctxDone : Bool
  finished : List Finish
  deriving DecidableEq, Repr

/-- Where the publish loop is: before `Initialize`, at the top of the loop, in `waitToRead`, in
`publishBatch` (with the retries so far, and whether it was called with the channel empty, to
wait afterwards), after the loop, and returned. -/
inductive LoopPc
  | initializing
  | top
  | waiting
  | publishing (retries : Nat) (thenWait : Bool)
  | draining
  | done
  deriving DecidableEq, Repr

/-- `BatchingProducer`: its configuration, the infos of the `Produce` calls in order (a message
is named by the index of its call), what each call returned, the channel, the loop's batch and
program point, and every batch handed to `PublishBatch`. -/
structure BatchingProducer (μ : Type) where
  batchSize : Nat
  maxQueueSize : Nat
  infos : List (ProduceProcessInfo μ)
  produced : List (Option ProduceError)
  queue : List Nat
  quit : Bool
  left : Bool
  loopCancelled : Bool
  disposed : Bool
  envelopes : List μ
  ctxArr : List Nat
  pc : LoopPc
  published : List (List μ)
  deriving DecidableEq, Repr

/-- `NewBatchingProducer`, before its loop runs. -/
def newBatchingProducer (batchSize maxQueueSize : Nat) : BatchingProducer μ :=
  ⟨batchSize, maxQueueSize, [], [], [], false, false, false, false, [], [], .initializing, []⟩

namespace BatchingProducer

/-! ### Finishing infos -/

/-- Close the `Finished` of message `id` (after its `cancelFunc`, which makes its context done). -/
def finish (p : BatchingProducer μ) (id : Nat) (f : Finish) : BatchingProducer μ :=
  { p with infos := p.infos.modify id fun i => { i with ctxDone := true, finished := i.finished ++ [f] } }

/-- Finish every message of a list the same way. -/
def finishAll (p : BatchingProducer μ) (ids : List Nat) (f : Finish) : BatchingProducer μ :=
  runFrom (fun p id => p.finish id f) p ids

/-- `clearBatch`. -/
def clearBatch (p : BatchingProducer μ) : BatchingProducer μ :=
  { p with envelopes := [], ctxArr := [] }

/-- `cancelBatch`. -/
def cancelBatch (p : BatchingProducer μ) : BatchingProducer μ :=
  (p.finishAll p.ctxArr .cancel).clearBatch

/-- `failBatch`. -/
def failBatch (p : BatchingProducer μ) : BatchingProducer μ :=
  (p.finishAll p.ctxArr .setErr).clearBatch

/-- `completeBatch`. -/
def completeBatch (p : BatchingProducer μ) : BatchingProducer μ :=
  (p.finishAll p.ctxArr .success).clearBatch

/-- `failPendingMessages` (`f = setErr`) and `cancelPendingMessages` (`f = cancel`): read the
channel to the end, finishing each message read. -/
def drainPending (p : BatchingProducer μ) (f : Finish) : BatchingProducer μ :=
  { p.finishAll p.queue f with queue := [] }

/-- Whether message `id`'s context is done. -/
def ctxDone (p : BatchingProducer μ) (id : Nat) : Bool :=
  (p.infos[id]?.map (·.ctxDone)).getD false

/-- Whether message `id`'s `Finished` is closed. -/
def isFinished (p : BatchingProducer μ) (id : Nat) : Bool :=
  (p.infos[id]?.map (·.finished != [])).getD false

/-- The loop of `removeCancelledFromBatch`, from index `i - 1` down to `0`: a message whose
context is done is cancelled, unless already finished, and removed from both arrays. -/
def removeCancelledFrom : Nat → BatchingProducer μ → BatchingProducer μ
  | 0, p => p
  | i + 1, p =>
    let p := match p.ctxArr[i]? with
      | some id =>
        if p.ctxDone id then
          let p := if p.isFinished id then p else p.finish id .cancel
          { p with envelopes := p.envelopes.eraseIdx i, ctxArr := p.ctxArr.eraseIdx i }
        else p
      | none => p
    removeCancelledFrom i p

/-- `removeCancelledFromBatch`. -/
def removeCancelledFromBatch (p : BatchingProducer μ) : BatchingProducer μ :=
  removeCancelledFrom p.ctxArr.length p

/-! ### The channel and `Produce` -/

/-- `tryWrite` of message `id`.  Bounded: the buffered send if there is room, unless the channel
is complete and the select picks `quit` (`sendFirst = false`).  Unbounded: the push, unless the
channel is complete. -/
def tryWrite (p : BatchingProducer μ) (id : Nat) (sendFirst : Bool) : Bool × BatchingProducer μ :=
  let accepted :=
    if p.maxQueueSize > 0 then decide (p.queue.length < p.maxQueueSize) && (!p.quit || sendFirst)
    else !p.quit
  if accepted then (true, { p with queue := p.queue ++ [id] }) else (false, p)

/-- `Produce`: a fresh info, and the write; the error says whether the channel is complete. -/
def produce (p : BatchingProducer μ) (message : μ) (sendFirst : Bool) : BatchingProducer μ :=
  let id := p.infos.length
  let p := { p with infos := p.infos ++ [(⟨message, false, []⟩ : ProduceProcessInfo μ)] }
  let r := p.tryWrite id sendFirst
  let err : Option ProduceError :=
    if r.1 then none else if r.2.quit then some .invalidOperation else some .producerQueueFull
  { r.2 with produced := p.produced ++ [err] }

/-- The caller of `Produce` cancels the context of message `id`. -/
def cancelContext (p : BatchingProducer μ) (id : Nat) : BatchingProducer μ :=
  { p with infos := p.infos.modify id fun i => { i with ctxDone := true } }

/-- `Dispose` up to its wait for the loop: cancel the loop's context and wake it. -/
def dispose (p : BatchingProducer μ) : BatchingProducer μ :=
  { p with loopCancelled := true, left := true, disposed := true }

/-! ### The publish loop -/

/-- `handleUnrecoverableError`: stop accepting, fail the batch and the pending messages. -/
def handleUnrecoverableError (p : BatchingProducer μ) : BatchingProducer μ :=
  ({ p with quit := true }.failBatch).drainPending .setErr

/-- After `publishBatch` returns no error: a new batch, and back to the top of the loop, or to
`waitToRead` when the batch was published because the channel was empty. -/
def afterPublish (p : BatchingProducer μ) (thenWait : Bool) : BatchingProducer μ :=
  { p.clearBatch with pc := if thenWait then .waiting else .top }

/-- One turn of `publishBatch`'s retry loop, with the outcome of its `PublishBatch`. -/
def publishTurn (p : BatchingProducer μ) (retries : Nat) (thenWait : Bool)
    (outcome : PublishOutcome) : BatchingProducer μ :=
  if p.loopCancelled then p.cancelBatch.afterPublish thenWait
  else
    let p := { p with published := p.published ++ [p.envelopes] }
    match outcome with
    | .ok => p.completeBatch.afterPublish thenWait
    | .error .failBatchAndStop =>
      -- `publishBatch` fails the batch and returns the error; the loop then stops
      { ({ p with quit := true }.failBatch).handleUnrecoverableError with pc := .draining }
    | .error .failBatchAndContinue => p.failBatch.afterPublish thenWait
    | .error (.retryBatchAfter _) =>
      let p := p.removeCancelledFromBatch
      if p.envelopes.length = 0 then p.afterPublish thenWait
      else { p with pc := .publishing (retries + 1) thenWait }

/-- One turn of the loop at the top: stop if cancelled; else read a message into the batch (or
cancel it if its context is done) and publish a full batch, or publish what there is when the
channel is empty, or wait. -/
def topTurn (p : BatchingProducer μ) : BatchingProducer μ :=
  if p.loopCancelled then { p with quit := true, pc := .draining }
  else
    match p.queue with
    | id :: rest =>
      let p := { p with queue := rest }
      let p := if p.ctxDone id then p.finish id .cancel
        else
          { p with
            envelopes := p.envelopes ++ (p.infos[id]?.map (·.message)).toList
            ctxArr := p.ctxArr ++ [id] }
      if p.envelopes.length < p.batchSize then p else { p with pc := .publishing 0 false }
    | [] => if p.envelopes.length > 0 then { p with pc := .publishing 0 true }
      else { p with pc := .waiting }

/-- What the loop is told by the outside world at one of its turns. -/
inductive LoopInput
  | initialized (failed : Bool)
  | turn
  | publish (outcome : PublishOutcome)
  deriving DecidableEq, Repr

/-- One turn of the publish loop. -/
def loopStep (p : BatchingProducer μ) : LoopInput → BatchingProducer μ
  | .initialized failed =>
    if p.pc = .initializing then
      -- an error other than `context.Canceled` is unrecoverable, but the loop still runs
      let p := { p with pc := .top }
      if failed then p.handleUnrecoverableError else p
    else p
  | .turn =>
    match p.pc with
    | .top => p.topTurn
    | .waiting => if p.queue ≠ [] ∨ p.left then { p with left := false, pc := .top } else p
    | .draining => { (p.cancelBatch.drainPending .cancel) with pc := .done }
    | _ => p
  | .publish outcome =>
    match p.pc with
    | .publishing retries thenWait => p.publishTurn retries thenWait outcome
    | _ => p

end BatchingProducer

/-- An event of the producer's goroutines or of the outside world. -/
inductive ProducerEvent (μ : Type)
  | produce (message : μ) (sendFirst : Bool)
  | cancelContext (id : Nat)
  | dispose
  | loop (input : BatchingProducer.LoopInput)

/-- One event. -/
def BatchingProducer.step (p : BatchingProducer μ) : ProducerEvent μ → BatchingProducer μ
  | .produce message sendFirst => p.produce message sendFirst
  | .cancelContext id => p.cancelContext id
  | .dispose => p.dispose
  | .loop input => p.loopStep input

/-- `Dispose` has returned: it was called, and the loop has closed `loopDone`. -/
def BatchingProducer.disposeReturned (p : BatchingProducer μ) : Bool :=
  p.disposed && decide (p.pc = .done)

/-! ### Once the loop has returned, nothing is finished -/

namespace BatchingProducer

/-- The closes of every `Finished`, by message. -/
def finishes (p : BatchingProducer μ) : List (List Finish) :=
  p.infos.map (·.finished)

/-- Once the loop has returned, every turn of it changes nothing. -/
@[simp] theorem loopStep_of_done {p : BatchingProducer μ} (h : p.pc = .done) (input : LoopInput) :
    p.loopStep input = p := by
  cases input <;> simp [loopStep, h]

@[simp] theorem pc_produce (p : BatchingProducer μ) (message : μ) (sendFirst : Bool) :
    (p.produce message sendFirst).pc = p.pc := by
  simp only [produce, tryWrite]
  split_ifs <;> rfl

theorem finishes_produce (p : BatchingProducer μ) (message : μ) (sendFirst : Bool) :
    (p.produce message sendFirst).finishes = p.finishes ++ [[]] := by
  simp only [produce, tryWrite, finishes]
  split_ifs <;> simp

theorem finishes_cancelContext (p : BatchingProducer μ) (id : Nat) :
    (p.cancelContext id).finishes = p.finishes := by
  apply List.ext_getElem?
  intro j
  simp only [cancelContext, finishes, List.getElem?_map, List.getElem?_modify]
  cases p.infos[j]? with
  | none => rfl
  | some info => by_cases h : id = j <;> simp [h]

/-- What the loop has finished stays as it is once the loop has returned: the later events only
add infos, cancel contexts or dispose. -/
def Frozen (fs : List (List Finish)) (p : BatchingProducer μ) : Prop :=
  p.pc = .done ∧ p.finishes.take fs.length = fs

theorem frozen_step {fs : List (List Finish)} {p : BatchingProducer μ} (h : Frozen fs p)
    (e : ProducerEvent μ) : Frozen fs (p.step e) := by
  obtain ⟨hdone, hfs⟩ := h
  cases e with
  | produce message sendFirst =>
    -- the new info comes after those of `fs`
    have hlen : fs.length ≤ p.finishes.length := by
      rw [← hfs]; exact List.length_take_le' _ _
    refine ⟨by rw [step, pc_produce, hdone], ?_⟩
    rw [step, finishes_produce, List.take_append_of_le_length hlen, hfs]
  | cancelContext id => exact ⟨hdone, by rw [step, finishes_cancelContext, hfs]⟩
  | dispose => exact ⟨hdone, hfs⟩
  | loop input => rw [step, loopStep_of_done hdone]; exact ⟨hdone, hfs⟩

theorem frozen_runFrom {fs : List (List Finish)} {p : BatchingProducer μ} (h : Frozen fs p)
    (es : List (ProducerEvent μ)) : Frozen fs (runFrom step p es) :=
  runFrom_induction (P := Frozen fs) (fun _ e h => frozen_step h e) h es

/-! ### No `Finished` is closed twice -/

theorem finishes_finish (p : BatchingProducer μ) (id : Nat) (f : Finish) :
    (p.finish id f).finishes = p.finishes.modify id (· ++ [f]) := by
  apply List.ext_getElem?
  intro j
  simp only [finish, finishes, List.getElem?_map, List.getElem?_modify]
  cases p.infos[j]? with
  | none => rfl
  | some info => by_cases h : id = j <;> simp [h]

/-- Closing distinct open `Finished`s closes each of them once, and nothing else. -/
theorem finishes_finishAll {ids : List Nat} (hids : ids.Nodup) {p : BatchingProducer μ}
    (hopen : ∀ id ∈ ids, p.finishes[id]? = some []) (f : Finish) (j : Nat) :
    (p.finishAll ids f).finishes[j]? = if j ∈ ids then some [f] else p.finishes[j]? := by
  induction ids generalizing p with
  | nil => rfl
  | cons id ids ih =>
    obtain ⟨hid, hids⟩ := List.nodup_cons.mp hids
    have hopen' : ∀ id' ∈ ids, (p.finish id f).finishes[id']? = some [] := by
      intro id' hid'
      have hne : id ≠ id' := fun h => hid (h ▸ hid')
      rw [finishes_finish, List.getElem?_modify]
      simp [hne, hopen id' (List.mem_cons_of_mem _ hid')]
    rw [finishAll, runFrom_cons, ← finishAll, ih hids hopen', finishes_finish,
      List.getElem?_modify]
    by_cases hj : j ∈ ids
    · simp [hj]
    · by_cases hji : j = id
      · subst hji; simp [hopen j List.mem_cons_self]
      · simp [hj, hji, Ne.symm hji]

@[simp] theorem queue_finishAll (p : BatchingProducer μ) (ids : List Nat) (f : Finish) :
    (p.finishAll ids f).queue = p.queue := by
  induction ids generalizing p with
  | nil => rfl
  | cons id ids ih => exact ih (p.finish id f)

@[simp] theorem ctxArr_finishAll (p : BatchingProducer μ) (ids : List Nat) (f : Finish) :
    (p.finishAll ids f).ctxArr = p.ctxArr := by
  induction ids generalizing p with
  | nil => rfl
  | cons id ids ih => exact ih (p.finish id f)


/-- The messages the producer still owes a close of `Finished`: those in the channel and those
in the loop's batch. -/
def owed (p : BatchingProducer μ) : List Nat :=
  p.queue ++ p.ctxArr

/-- No `Finished` has been closed twice, and each message owed a close is owed it once and has
its `Finished` still open. -/
structure ClosedOnce (p : BatchingProducer μ) : Prop where
  nodup : p.owed.Nodup
  owedOpen : ∀ id ∈ p.owed, p.finishes[id]? = some []
  atMostOnce : ∀ fs ∈ p.finishes, fs.length ≤ 1

/-- Closing some owed messages once each and no longer owing them keeps `ClosedOnce`. -/
theorem ClosedOnce.close {p p' : BatchingProducer μ} (h : p.ClosedOnce) (ids : List Nat)
    (hids : ids.Nodup) (hsub : ∀ id ∈ ids, id ∈ p.owed) (f : Finish)
    (hfin : p'.finishes = (p.finishAll ids f).finishes) (hnd : p'.owed.Nodup)
    (hrest : ∀ id ∈ p'.owed, id ∈ p.owed ∧ id ∉ ids) : p'.ClosedOnce := by
  have hspec := finishes_finishAll hids (fun id hid => h.owedOpen id (hsub id hid)) f
  refine ⟨hnd, fun id hid => ?_, fun fs hfs => ?_⟩
  · obtain ⟨howed, hnot⟩ := hrest id hid
    rw [hfin, hspec, if_neg hnot]
    exact h.owedOpen id howed
  · obtain ⟨j, hj⟩ := List.mem_iff_getElem?.mp hfs
    rw [hfin, hspec] at hj
    split_ifs at hj
    · cases hj
      simp
    · exact h.atMostOnce fs (List.mem_of_getElem? hj)

/-- A step that closes nothing and owes no new message keeps `ClosedOnce`. -/
theorem ClosedOnce.frame {p p' : BatchingProducer μ} (h : p.ClosedOnce)
    (hfin : p'.finishes = p.finishes) (hnd : p'.owed.Nodup) (hsub : ∀ id ∈ p'.owed, id ∈ p.owed) :
    p'.ClosedOnce :=
  h.close [] List.nodup_nil (by simp) .cancel hfin hnd fun id hid => ⟨hsub id hid, by simp⟩

theorem ClosedOnce.finishBatch {p : BatchingProducer μ} (h : p.ClosedOnce) (f : Finish) :
    ((p.finishAll p.ctxArr f).clearBatch).ClosedOnce := by
  have hdisj := List.nodup_append.mp h.nodup
  refine h.close p.ctxArr hdisj.2.1 (fun id hid => List.mem_append_right _ hid) f rfl ?_ ?_
  · simpa [owed, clearBatch] using hdisj.1
  · intro id hid
    simp only [owed, clearBatch, queue_finishAll, List.append_nil] at hid
    exact ⟨List.mem_append_left _ hid, fun hc => hdisj.2.2 id hid id hc rfl⟩

theorem ClosedOnce.drainPending {p : BatchingProducer μ} (h : p.ClosedOnce) (f : Finish) :
    (p.drainPending f).ClosedOnce := by
  have hdisj := List.nodup_append.mp h.nodup
  refine h.close p.queue hdisj.1 (fun id hid => List.mem_append_left _ hid) f rfl ?_ ?_
  · simpa [owed, BatchingProducer.drainPending] using hdisj.2.1
  · intro id hid
    simp only [owed, BatchingProducer.drainPending, ctxArr_finishAll, List.nil_append] at hid
    exact ⟨List.mem_append_right _ hid, fun hq => hdisj.2.2 id hq id hid rfl⟩

/-- A step that changes no message's `Finished`, the channel or the batch keeps `ClosedOnce`. -/
theorem ClosedOnce.of_same {p p' : BatchingProducer μ} (h : p.ClosedOnce)
    (hq : p'.queue = p.queue) (hc : p'.ctxArr = p.ctxArr) (hi : p'.infos = p.infos) :
    p'.ClosedOnce := by
  have howed : p'.owed = p.owed := by rw [owed, owed, hq, hc]
  have hfin : p'.finishes = p.finishes := by rw [finishes, finishes, hi]
  exact h.frame hfin (howed ▸ h.nodup) fun id hid => howed ▸ hid

theorem ClosedOnce.afterPublish {p : BatchingProducer μ} (h : p.ClosedOnce) (thenWait : Bool) :
    (p.afterPublish thenWait).ClosedOnce :=
  h.frame rfl (h.nodup.sublist (by simp [owed, BatchingProducer.afterPublish, clearBatch]))
    fun id hid => by simp_all [owed, BatchingProducer.afterPublish, clearBatch]

theorem ClosedOnce.handleUnrecoverableError {p : BatchingProducer μ} (h : p.ClosedOnce) :
    p.handleUnrecoverableError.ClosedOnce := by
  have hquit : ({ p with quit := true } : BatchingProducer μ).ClosedOnce := h.of_same rfl rfl rfl
  exact (hquit.finishBatch .setErr).drainPending .setErr

/-- `Produce` either writes its message into the channel or leaves the channel as it is. -/
theorem queue_produce (p : BatchingProducer μ) (message : μ) (sendFirst : Bool) :
    (p.produce message sendFirst).queue = p.queue ++ [p.infos.length] ∨
      (p.produce message sendFirst).queue = p.queue := by
  simp only [BatchingProducer.produce, tryWrite]
  split_ifs <;> simp

@[simp] theorem ctxArr_produce (p : BatchingProducer μ) (message : μ) (sendFirst : Bool) :
    (p.produce message sendFirst).ctxArr = p.ctxArr := by
  simp only [BatchingProducer.produce, tryWrite]
  split_ifs <;> rfl

theorem ClosedOnce.produce {p : BatchingProducer μ} (h : p.ClosedOnce) (message : μ)
    (sendFirst : Bool) : (p.produce message sendFirst).ClosedOnce := by
  set p' := p.produce message sendFirst
  -- the new message is numbered past every message owed, and its `Finished` is open
  have hlt : ∀ id ∈ p.owed, id < p.finishes.length := fun id hid =>
    (List.getElem?_eq_some_iff.mp (h.owedOpen id hid)).1
  have hfresh : p.infos.length ∉ p.owed := fun hid => by
    simpa [finishes] using hlt _ hid
  have hfin : p'.finishes = p.finishes ++ [[]] := finishes_produce p message sendFirst
  have hopen : ∀ id ∈ p.owed, p'.finishes[id]? = some [] := fun id hid => by
    rw [hfin, List.getElem?_append_left (hlt id hid)]
    exact h.owedOpen id hid
  have hmost : ∀ fs ∈ p'.finishes, fs.length ≤ 1 := by
    intro fs hfs
    rw [hfin] at hfs
    rcases List.mem_append.mp hfs with hfs | hfs
    · exact h.atMostOnce fs hfs
    · simp_all
  rcases queue_produce p message sendFirst with hq | hq
  · -- accepted: the new message is owed too
    have hperm : p'.owed.Perm (p.infos.length :: p.owed) := by
      simp only [owed, hq, ctxArr_produce, p', List.append_assoc, List.singleton_append]
      exact List.perm_middle
    refine ⟨hperm.nodup_iff.mpr (List.nodup_cons.mpr ⟨hfresh, h.nodup⟩), fun id hid => ?_, hmost⟩
    rcases List.mem_cons.mp (hperm.mem_iff.mp hid) with rfl | hid
    · rw [hfin, List.getElem?_append_right (by simp [finishes])]
      simp [finishes]
    · exact hopen id hid
  · have howed : p'.owed = p.owed := by simp only [owed, hq, ctxArr_produce, p']
    exact ⟨howed ▸ h.nodup, fun id hid => hopen id (howed ▸ hid), hmost⟩

theorem isFinished_of_open {p : BatchingProducer μ} {id : Nat} (h : p.finishes[id]? = some []) :
    p.isFinished id = false := by
  simp only [finishes, List.getElem?_map, Option.map_eq_some_iff] at h
  obtain ⟨info, hinfo, hf⟩ := h
  simp [isFinished, hinfo, hf]

section Read

variable {p : BatchingProducer μ} {id : Nat} {rest : List Nat}

/-- The message read from the channel is owed once, so neither the rest of the channel nor the
batch holds it. -/
theorem ClosedOnce.nodup_read (h : p.ClosedOnce) (hq : p.queue = id :: rest) :
    (id :: (rest ++ p.ctxArr)).Nodup := by
  simpa [owed, hq] using h.nodup

theorem mem_owed_of_read (hq : p.queue = id :: rest) {x : Nat} (hx : x ∈ rest ++ p.ctxArr) :
    x ∈ p.owed := by
  simp only [owed, hq, List.cons_append]
  exact List.mem_cons_of_mem _ hx

/-- A message read whose context is done is finished, and owed no more. -/
theorem ClosedOnce.readCancelled (h : p.ClosedOnce) (hq : p.queue = id :: rest) :
    (({ p with queue := rest } : BatchingProducer μ).finish id .cancel).ClosedOnce := by
  obtain ⟨hid, hrest⟩ := List.nodup_cons.mp (h.nodup_read hq)
  refine h.close [id] (by simp) (by simp [owed, hq]) .cancel rfl hrest ?_
  intro x hx
  refine ⟨mem_owed_of_read hq hx, ?_⟩
  simp only [List.mem_singleton]
  rintro rfl
  exact hid hx

/-- A message read into the batch is still owed, once. -/
theorem ClosedOnce.readIntoBatch (h : p.ClosedOnce) (hq : p.queue = id :: rest)
    (envelopes : List μ) :
    ({ p with queue := rest, envelopes := envelopes, ctxArr := p.ctxArr ++ [id] } :
      BatchingProducer μ).ClosedOnce := by
  have hperm : (rest ++ (p.ctxArr ++ [id])).Perm (id :: (rest ++ p.ctxArr)) := by
    rw [← List.append_assoc]
    exact List.perm_append_singleton id _
  refine h.frame rfl (hperm.nodup_iff.mpr (h.nodup_read hq)) fun x hx => ?_
  rcases List.mem_cons.mp (hperm.mem_iff.mp hx) with rfl | hx
  · simp [owed, hq]
  · exact mem_owed_of_read hq hx

end Read

theorem ClosedOnce.topTurn {p : BatchingProducer μ} (h : p.ClosedOnce) : p.topTurn.ClosedOnce := by
  unfold BatchingProducer.topTurn
  by_cases hcancelled : p.loopCancelled
  · rw [if_pos hcancelled]
    exact h.of_same rfl rfl rfl
  rw [if_neg hcancelled]
  rcases hq : p.queue with _ | ⟨id, rest⟩
  · -- an empty channel: the loop publishes or waits
    dsimp only
    split_ifs
    · exact h.of_same hq.symm rfl rfl
    · exact h.of_same hq.symm rfl rfl
  · -- a message read, then the batch published if full
    dsimp only
    split_ifs
    · exact h.readCancelled hq
    · exact (h.readCancelled hq).of_same rfl rfl rfl
    · exact h.readIntoBatch hq _
    · exact (h.readIntoBatch hq (p.envelopes ++ (p.infos[id]?.map (·.message)).toList)).of_same
        rfl rfl rfl

/-- An element picked by its index is gone from a list without repeats once its index is
erased. -/
theorem not_mem_eraseIdx_of_getElem? {l : List Nat} {i x : Nat} (hl : l.Nodup)
    (hx : l[i]? = some x) : x ∉ l.eraseIdx i := by
  intro hmem
  obtain ⟨j, hji, hj⟩ := List.mem_eraseIdx_iff_getElem?.mp hmem
  have hjlt : j < l.length := (List.getElem?_eq_some_iff.mp hj).1
  exact hji ((List.getElem?_inj hjlt hl).mp (hj.trans hx.symm))

theorem ClosedOnce.removeCancelledFrom (i : Nat) {p : BatchingProducer μ} (h : p.ClosedOnce) :
    (removeCancelledFrom i p).ClosedOnce := by
  induction i generalizing p with
  | zero => exact h
  | succ i ih =>
    apply ih
    rcases hc : p.ctxArr[i]? with _ | id
    · exact h
    dsimp only
    by_cases hdone : p.ctxDone id
    · -- a batched message is owed, so its `Finished` is open: it is closed now and dropped
      have hdisj := List.nodup_append.mp h.nodup
      have hmem : id ∈ p.ctxArr := List.mem_of_getElem? hc
      have hopen := isFinished_of_open (h.owedOpen id (List.mem_append_right _ hmem))
      simp only [hdone, hopen, if_true, Bool.false_eq_true, if_false]
      refine h.close [id] (by simp) (by simp [owed, hmem]) .cancel rfl ?_ ?_
      · exact h.nodup.sublist ((List.eraseIdx_sublist _ _).append_left _)
      · intro x hx
        simp only [List.mem_singleton]
        rcases List.mem_append.mp hx with hx | hx
        · exact ⟨List.mem_append_left _ hx, by
            rintro rfl
            exact hdisj.2.2 x hx x hmem rfl⟩
        · exact ⟨List.mem_append_right _ (List.mem_of_mem_eraseIdx hx), by
            rintro rfl
            exact not_mem_eraseIdx_of_getElem? hdisj.2.1 hc hx⟩
    · simp only [hdone, Bool.false_eq_true, if_false]
      exact h

theorem ClosedOnce.publishTurn {p : BatchingProducer μ} (h : p.ClosedOnce) (retries : Nat)
    (thenWait : Bool) (outcome : PublishOutcome) :
    (p.publishTurn retries thenWait outcome).ClosedOnce := by
  unfold BatchingProducer.publishTurn
  split_ifs
  · exact (h.finishBatch .cancel).afterPublish thenWait
  have h1 : ({ p with published := p.published ++ [p.envelopes] } : BatchingProducer μ).ClosedOnce :=
    h.of_same rfl rfl rfl
  cases outcome with
  | ok => exact (h1.finishBatch .success).afterPublish thenWait
  | error decision =>
    cases decision with
    | failBatchAndStop =>
      -- the batch is failed once; the handler's own `failBatch` finds it empty
      have hquit : ({ p with published := p.published ++ [p.envelopes], quit := true } :
          BatchingProducer μ).ClosedOnce := h.of_same rfl rfl rfl
      exact (hquit.finishBatch .setErr).handleUnrecoverableError.of_same rfl rfl rfl
    | failBatchAndContinue => exact (h1.finishBatch .setErr).afterPublish thenWait
    | retryBatchAfter delay =>
      have h2 := h1.removeCancelledFrom p.ctxArr.length
      dsimp only
      split_ifs
      · exact h2.afterPublish thenWait
      · exact h2.of_same rfl rfl rfl

theorem ClosedOnce.loopStep {p : BatchingProducer μ} (h : p.ClosedOnce) (input : LoopInput) :
    (p.loopStep input).ClosedOnce := by
  cases input with
  | initialized failed =>
    simp only [BatchingProducer.loopStep]
    split_ifs
    · have htop : ({ p with pc := .top } : BatchingProducer μ).ClosedOnce := h.of_same rfl rfl rfl
      exact htop.handleUnrecoverableError
    · exact h.of_same rfl rfl rfl
    · exact h
  | turn =>
    simp only [BatchingProducer.loopStep]
    split
    · exact h.topTurn
    · split_ifs
      · exact h.of_same rfl rfl rfl
      · exact h
    · exact ((h.finishBatch .cancel).drainPending .cancel).of_same rfl rfl rfl
    · exact h
  | publish outcome =>
    simp only [BatchingProducer.loopStep]
    split
    · exact h.publishTurn _ _ outcome
    · exact h

theorem ClosedOnce.step {p : BatchingProducer μ} (h : p.ClosedOnce) (e : ProducerEvent μ) :
    (p.step e).ClosedOnce := by
  cases e with
  | produce message sendFirst => exact h.produce message sendFirst
  | cancelContext id =>
    exact h.frame (finishes_cancelContext p id) h.nodup fun _ hid => hid
  | dispose => exact h.of_same rfl rfl rfl
  | loop input => exact h.loopStep input

/-- No `Finished` channel is closed twice, over every run: closing a closed channel panics. -/
theorem finished_closed_at_most_once (batchSize maxQueueSize : Nat)
    (es : List (ProducerEvent μ)) :
    ∀ fs ∈ (runFrom step (newBatchingProducer batchSize maxQueueSize) es).finishes,
      fs.length ≤ 1 := by
  have hnew : (newBatchingProducer batchSize maxQueueSize : BatchingProducer μ).ClosedOnce :=
    ⟨List.nodup_nil, by simp [owed, newBatchingProducer], by simp [finishes, newBatchingProducer]⟩
  exact (runFrom_induction (P := ClosedOnce) (fun _ e h => h.step e) hnew es).atMostOnce

end BatchingProducer

/-! ### A message accepted after the loop stopped -/

/-- A producer with batches of one message and a queue of one: `Initialize` succeeds, `"m1"` is
produced and read, its `PublishBatch` fails and the handler decides `FailBatchAndStop`, the loop
returns, `"m2"` is produced and the select picks the buffered send, and `Dispose` is called. -/
def stoppedProducerRun : List (ProducerEvent String) :=
  [.loop (.initialized false), .produce "m1" true, .loop .turn, .loop (.publish (.error .failBatchAndStop)),
    .loop .turn, .produce "m2" true, .dispose]

/-- The producer after `stoppedProducerRun`. -/
def stoppedProducer : BatchingProducer String :=
  runFrom BatchingProducer.step (newBatchingProducer 1 1) stoppedProducerRun

/-- The failed batch's message is closed once, by its error. -/
theorem finished_closed_at_most_once_stoppedProducer :
    [Finish.setErr] ∈ stoppedProducer.finishes ∧ [Finish.setErr].length ≤ 1 := by
  have hmem : [Finish.setErr] ∈ stoppedProducer.finishes := by decide
  exact ⟨hmem, BatchingProducer.finished_closed_at_most_once 1 1 stoppedProducerRun _ hmem⟩

theorem produce_after_stop_never_finished :
    stoppedProducer.produced = [none, none] ∧ stoppedProducer.disposeReturned = true ∧
      stoppedProducer.finishes = [[.setErr], []] ∧
      ∀ es, (runFrom BatchingProducer.step stoppedProducer es).finishes[1]? = some [] := by
  have hp : stoppedProducer.produced = [none, none] ∧ stoppedProducer.disposeReturned = true ∧
      stoppedProducer.finishes = [[.setErr], []] := by
    decide
  refine ⟨hp.1, hp.2.1, hp.2.2, fun es => ?_⟩
  -- the loop has returned: the finishes of both messages are frozen
  have hfrozen : BatchingProducer.Frozen [[.setErr], []] stoppedProducer :=
    ⟨by decide, by rw [hp.2.2]; rfl⟩
  have hrun := (BatchingProducer.frozen_runFrom hfrozen es).2
  rw [← List.getElem?_take_of_lt (show 1 < [[Finish.setErr], []].length by decide), hrun]
  rfl

end ProtoActor.Cluster
