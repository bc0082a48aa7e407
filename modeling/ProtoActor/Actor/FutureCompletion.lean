import ProtoActor.Actor.Future

/-!
# Completion of a future

* `pipeTargets_run`, `completions_run`: every target passed to `PipeTo` and every completion
  passed to `continueWith` is served exactly once, in the order of registration, or is still
  pending; a done future has nothing pending.  This holds for every sequence of calls.
* `Delivered` is the agreement between what was delivered and the future's outcome: every pipe
  target got `outcome` and every completion got `(result, err)`.  `step_delivered` keeps it for
  every call except a reply to a future that is already done, so `run_delivered` holds over
  every run in which replies stop once the future is done, and `run_outcome_of_done` says that
  there `result` and `err` never change again.
* `future_delivers_once` puts these together for every run of a new future.
* The replies are the exception: `SendUserMessage` and `SendSystemMessage` store the reply before
  `Stop` tests `done`, and `Stop` then returns at once.  `second_reply_overwrites_result` pipes a
  future to a target, replies twice, and ends with a result the target never saw.
-/

namespace ProtoActor.Actor

variable {α κ : Type}

/-- The target of a pipe send. -/
def FutureEffect.pipeTarget? : FutureEffect α κ → Option PID
  | .pipe target _ => some target
  | _ => none

/-- The completion that ran. -/
def FutureEffect.completion? : FutureEffect α κ → Option κ
  | .complete k _ _ => some k
  | _ => none

/-- A reply: the two calls that store into `result` or `err` before `Stop` tests `done`. -/
def FutureOp.isReply : FutureOp α κ → Bool
  | .sendUserMessage _ => true
  | .sendSystemMessage _ => true
  | _ => false

namespace Future

/-! ### Delivery accounting -/

/-- The targets registered by the `PipeTo` calls of a run, in order. -/
def pipesOf : List (FutureOp α κ) → List PID
  | [] => []
  | .pipeTo pids :: ops => pids ++ pipesOf ops
  | _ :: ops => pipesOf ops

/-- The completions registered by the `continueWith` calls of a run, in order. -/
def completionsOf : List (FutureOp α κ) → List κ
  | [] => []
  | .continueWith k :: ops => k :: completionsOf ops
  | _ :: ops => completionsOf ops

/-- The targets a future has served, followed by those still pending. -/
def servedPipes (f : Future α κ) : List PID :=
  f.effects.filterMap FutureEffect.pipeTarget? ++ f.pipes

/-- The completions a future has run, followed by those still pending. -/
def servedCompletions (f : Future α κ) : List κ :=
  f.effects.filterMap FutureEffect.completion? ++ f.completions

theorem filterMap_pipeTarget_map_pipe (pids : List PID) (v : Outcome α) :
    (pids.map fun pid => (.pipe pid v : FutureEffect α κ)).filterMap FutureEffect.pipeTarget? =
      pids := by
  induction pids <;> simp_all [FutureEffect.pipeTarget?]

theorem filterMap_pipeTarget_map_complete (ks : List κ) (r : Option α) (e : Option FutureError) :
    (ks.map fun k => (.complete k r e : FutureEffect α κ)).filterMap FutureEffect.pipeTarget? =
      [] := by
  induction ks <;> simp_all [FutureEffect.pipeTarget?]

theorem filterMap_completion_map_pipe (pids : List PID) (v : Outcome α) :
    (pids.map fun pid => (.pipe pid v : FutureEffect α κ)).filterMap FutureEffect.completion? =
      [] := by
  induction pids <;> simp_all [FutureEffect.completion?]

theorem filterMap_completion_map_complete (ks : List κ) (r : Option α) (e : Option FutureError) :
    (ks.map fun k => (.complete k r e : FutureEffect α κ)).filterMap FutureEffect.completion? =
      ks := by
  induction ks <;> simp_all [FutureEffect.completion?]

/-- A done future keeps nothing pending. -/
structure Settled (f : Future α κ) : Prop where
  pipes_nil : f.done = true → f.pipes = []
  completions_nil : f.done = true → f.completions = []

theorem settled_stop {f : Future α κ} (hf : f.Settled) : f.stop.Settled := by
  cases h : f.done
  · rw [stop_of_not_done h]
    exact ⟨fun _ => rfl, fun _ => rfl⟩
  · rwa [stop_of_done h]

/-- Every call keeps a done future free of pending targets and completions. -/
theorem settled_step {f : Future α κ} (hf : f.Settled) (op : FutureOp α κ) :
    (f.step op).Settled := by
  cases op with
  | sendUserMessage m => cases m <;> exact settled_stop ⟨hf.pipes_nil, hf.completions_nil⟩
  | sendSystemMessage m => exact settled_stop ⟨hf.pipes_nil, hf.completions_nil⟩
  | timeout =>
    simp only [step, timeout]
    split
    · exact hf
    · exact settled_stop ⟨hf.pipes_nil, hf.completions_nil⟩
  | stop => exact settled_stop hf
  | pipeTo pids =>
    simp only [step, pipeTo]
    split
    · exact ⟨fun _ => rfl, hf.completions_nil⟩
    · exact ⟨fun h => absurd h ‹_›, fun h => absurd h ‹_›⟩
  | continueWith k =>
    simp only [step, continueWith]
    split
    · exact ⟨hf.pipes_nil, hf.completions_nil⟩
    · exact ⟨fun h => absurd h ‹_›, fun h => absurd h ‹_›⟩

theorem servedPipes_stop (f : Future α κ) : f.stop.servedPipes = f.servedPipes := by
  cases h : f.done
  · simp only [stop_of_not_done h, servedPipes, List.filterMap_append, List.filterMap_cons,
      FutureEffect.pipeTarget?, filterMap_pipeTarget_map_pipe, filterMap_pipeTarget_map_complete]
    simp
  · simp [stop_of_done h]

theorem servedCompletions_stop (f : Future α κ) :
    f.stop.servedCompletions = f.servedCompletions := by
  cases h : f.done
  · simp only [stop_of_not_done h, servedCompletions, List.filterMap_append, List.filterMap_cons,
      FutureEffect.completion?, filterMap_completion_map_pipe, filterMap_completion_map_complete]
    simp
  · simp [stop_of_done h]

theorem servedPipes_sendToPipes (f : Future α κ) : f.sendToPipes.servedPipes = f.servedPipes := by
  simp only [sendToPipes, servedPipes, List.filterMap_append, filterMap_pipeTarget_map_pipe]
  simp

theorem servedCompletions_sendToPipes (f : Future α κ) :
    f.sendToPipes.servedCompletions = f.servedCompletions := by
  simp only [sendToPipes, servedCompletions, List.filterMap_append, filterMap_completion_map_pipe]
  simp

/-- One call registers its targets and serves or keeps every earlier one. -/
theorem servedPipes_step (f : Future α κ) (op : FutureOp α κ) :
    (f.step op).servedPipes = f.servedPipes ++ pipesOf [op] := by
  cases op with
  | sendUserMessage m =>
    cases m <;> simp only [step, sendUserMessage] <;> rw [servedPipes_stop] <;>
      simp [servedPipes, pipesOf]
  | sendSystemMessage m =>
    simp only [step, sendSystemMessage]; rw [servedPipes_stop]; simp [servedPipes, pipesOf]
  | timeout =>
    simp only [step, timeout]
    split
    · simp [pipesOf]
    · rw [servedPipes_stop]; simp [servedPipes, pipesOf]
  | stop => simp [step, servedPipes_stop, pipesOf]
  | pipeTo pids =>
    simp only [step, pipeTo]
    split
    · rw [servedPipes_sendToPipes]; simp [servedPipes, pipesOf]
    · simp [servedPipes, pipesOf]
  | continueWith k =>
    simp only [step, continueWith]
    split <;> simp [servedPipes, emit, pipesOf, FutureEffect.pipeTarget?]

/-- One call registers its completion and runs or keeps every earlier one; a done future runs a
new completion at once, and has none pending before it (`Settled`). -/
theorem servedCompletions_step {f : Future α κ} (hf : f.Settled) (op : FutureOp α κ) :
    (f.step op).servedCompletions = f.servedCompletions ++ completionsOf [op] := by
  cases op with
  | sendUserMessage m =>
    cases m <;> simp only [step, sendUserMessage] <;> rw [servedCompletions_stop] <;>
      simp [servedCompletions, completionsOf]
  | sendSystemMessage m =>
    simp only [step, sendSystemMessage]; rw [servedCompletions_stop]
    simp [servedCompletions, completionsOf]
  | timeout =>
    simp only [step, timeout]
    split
    · simp [completionsOf]
    · rw [servedCompletions_stop]; simp [servedCompletions, completionsOf]
  | stop => simp [step, servedCompletions_stop, completionsOf]
  | pipeTo pids =>
    simp only [step, pipeTo]
    split
    · rw [servedCompletions_sendToPipes]; simp [servedCompletions, completionsOf]
    · simp [servedCompletions, completionsOf]
  | continueWith k =>
    simp only [step, continueWith]
    split
    · -- done: the completion runs now, and nothing was pending
      simp [servedCompletions, emit, completionsOf, FutureEffect.completion?,
        hf.completions_nil ‹_›]
    · simp [servedCompletions, completionsOf]

theorem pipesOf_cons (op : FutureOp α κ) (ops : List (FutureOp α κ)) :
    pipesOf (op :: ops) = pipesOf [op] ++ pipesOf ops := by
  cases op <;> simp [pipesOf]

theorem completionsOf_cons (op : FutureOp α κ) (ops : List (FutureOp α κ)) :
    completionsOf (op :: ops) = completionsOf [op] ++ completionsOf ops := by
  cases op <;> simp [completionsOf]

theorem settled_run {f : Future α κ} (hf : f.Settled) (ops : List (FutureOp α κ)) :
    (f.run ops).Settled := by
  exact @Transition.runFrom_induction _ _ step Settled (fun _ op h => settled_step h op) f hf ops

/-- **Every pipe target is served once.** Over any sequence of calls on a new future, the pipe
sends go to the registered targets in order, each once, and the rest are still pending; a done
future has none pending. -/
theorem pipeTargets_run (ops : List (FutureOp α κ)) :
    (Future.new.run ops).servedPipes = pipesOf ops ∧
    ((Future.new.run ops).done = true → (Future.new.run ops).pipes = []) := by
  suffices h : ∀ f : Future α κ, (f.run ops).servedPipes = f.servedPipes ++ pipesOf ops by
    refine ⟨by simpa [servedPipes, Future.new] using h Future.new, ?_⟩
    exact (settled_run ⟨by simp [Future.new], by simp [Future.new]⟩ ops).pipes_nil
  induction ops with
  | nil => simp [run, pipesOf]
  | cons op ops ih =>
    intro f
    rw [run, Transition.runFrom_cons, ← run, ih, servedPipes_step, pipesOf_cons op ops,
      List.append_assoc]

/-- **Every completion runs once.** -/
theorem completions_run (ops : List (FutureOp α κ)) :
    (Future.new.run ops).servedCompletions = completionsOf ops ∧
    ((Future.new.run ops).done = true → (Future.new.run ops).completions = []) := by
  suffices h : ∀ f : Future α κ, f.Settled →
      (f.run ops).servedCompletions = f.servedCompletions ++ completionsOf ops by
    have hnew : (Future.new : Future α κ).Settled := ⟨by simp [Future.new], by simp [Future.new]⟩
    refine ⟨by simpa [servedCompletions, Future.new] using h Future.new hnew, ?_⟩
    exact (settled_run hnew ops).completions_nil
  induction ops with
  | nil => simp [run, completionsOf]
  | cons op ops ih =>
    intro f hf
    rw [run, Transition.runFrom_cons, ← run, ih _ (settled_step hf op), servedCompletions_step hf,
      completionsOf_cons op ops, List.append_assoc]

/-! ### What the deliveries carry -/

/-- **The deliveries agree with the future.** Pipe sends and completions happen only once the
future is done; every pipe target got `outcome` and every completion got `(result, err)`. -/
structure Delivered (f : Future α κ) : Prop extends f.Settled where
  pipe_eq : ∀ pid v, .pipe pid v ∈ f.effects → f.done = true ∧ v = f.outcome
  complete_eq : ∀ k r e, .complete k r e ∈ f.effects → f.done = true ∧ r = f.result ∧ e = f.err

theorem delivered_new : (Future.new : Future α κ).Delivered where
  pipes_nil := by simp [Future.new]
  completions_nil := by simp [Future.new]
  pipe_eq := by simp [Future.new]
  complete_eq := by simp [Future.new]

/-- Before the future is done nothing has been delivered, so any record that is not done either
and carries the same effects delivers nothing that disagrees with it. -/
theorem delivered_of_not_done {f g : Future α κ} (hf : f.Delivered) (hd : f.done = false)
    (hg : g.done = false) (he : g.effects = f.effects) : g.Delivered where
  pipes_nil h := absurd h (by simp [hg])
  completions_nil h := absurd h (by simp [hg])
  pipe_eq pid v hv := absurd (hf.pipe_eq pid v (he ▸ hv)).1 (by simp [hd])
  complete_eq k r e hv := absurd (hf.complete_eq k r e (he ▸ hv)).1 (by simp [hd])

theorem mem_stop_effects {f : Future α κ} (h : f.done = false) {e : FutureEffect α κ} :
    e ∈ f.stop.effects ↔ e ∈ f.effects ∨ e = .stopTimer ∨ e = .unregister ∨
      (∃ pid ∈ f.pipes, e = .pipe pid f.outcome) ∨
      (∃ k ∈ f.completions, e = .complete k f.result f.err) ∨ e = .signal := by
  rw [stop_of_not_done h]
  simp only [List.mem_append, List.mem_cons, List.mem_map, List.not_mem_nil, or_false]
  constructor
  · rintro ((((h | h | h) | ⟨pid, hp, rfl⟩) | ⟨k, hk, rfl⟩) | h)
    · exact .inl h
    · exact .inr (.inl h)
    · exact .inr (.inr (.inl h))
    · exact .inr (.inr (.inr (.inl ⟨pid, hp, rfl⟩)))
    · exact .inr (.inr (.inr (.inr (.inl ⟨k, hk, rfl⟩))))
    · exact .inr (.inr (.inr (.inr (.inr h))))
  · rintro (h | h | h | ⟨pid, hp, rfl⟩ | ⟨k, hk, rfl⟩ | h)
    · exact .inl (.inl (.inl (.inl h)))
    · exact .inl (.inl (.inl (.inr (.inl h))))
    · exact .inl (.inl (.inl (.inr (.inr h))))
    · exact .inl (.inl (.inr ⟨pid, hp, rfl⟩))
    · exact .inl (.inr ⟨k, hk, rfl⟩)
    · exact .inr h

/-- The `Stop` that completes the future hands the current `outcome` to every pending target and
`(result, err)` to every pending completion. -/
theorem stop_delivered {f : Future α κ} (hf : f.Delivered) : f.stop.Delivered := by
  cases h : f.done
  · have hdone : f.stop.done = true := by simp [stop_of_not_done h]
    have hsame : f.stop.result = f.result ∧ f.stop.err = f.err := by simp [stop_of_not_done h]
    have hout : f.stop.outcome = f.outcome := by simp [outcome, hsame.1, hsame.2]
    refine ⟨⟨fun _ => by simp [stop_of_not_done h], fun _ => by simp [stop_of_not_done h]⟩, ?_, ?_⟩
    · intro pid v hv
      rcases (mem_stop_effects h).mp hv with hv | hv | hv | ⟨_, _, hv⟩ | ⟨_, _, hv⟩ | hv
      · exact absurd (hf.pipe_eq pid v hv).1 (by simp [h])
      · cases hv
      · cases hv
      · cases hv; exact ⟨hdone, hout.symm⟩
      · cases hv
      · cases hv
    · intro k r e hv
      rcases (mem_stop_effects h).mp hv with hv | hv | hv | ⟨_, _, hv⟩ | ⟨_, _, hv⟩ | hv
      · exact absurd (hf.complete_eq k r e hv).1 (by simp [h])
      · cases hv
      · cases hv
      · cases hv
      · cases hv; exact ⟨hdone, hsame.1.symm, hsame.2.symm⟩
      · cases hv
  · rwa [stop_of_done h]

/-- Sending to the pipes of a done future with no pending completion hands each target the
outcome. -/
theorem sendToPipes_delivered {f : Future α κ} (hd : f.done = true)
    (hpipe : ∀ pid v, .pipe pid v ∈ f.effects → f.done = true ∧ v = f.outcome)
    (hcomp : ∀ k r e, .complete k r e ∈ f.effects → f.done = true ∧ r = f.result ∧ e = f.err)
    (hc : f.completions = []) : f.sendToPipes.Delivered where
  pipes_nil _ := rfl
  completions_nil _ := hc
  pipe_eq pid v hv := by
    simp only [sendToPipes, List.mem_append, List.mem_map] at hv
    rcases hv with hv | ⟨_, _, hv⟩
    · exact hpipe pid v hv
    · cases hv; exact ⟨hd, by simp [outcome, sendToPipes]⟩
  complete_eq k r e hv := by
    simp only [sendToPipes, List.mem_append, List.mem_map, reduceCtorEq, and_false,
      exists_false, or_false] at hv
    exact hcomp k r e hv

/-- Every call keeps `Delivered`, except a reply to a future that is already done. -/
theorem step_delivered {f : Future α κ} (hf : f.Delivered) {op : FutureOp α κ}
    (hop : f.done = true → op.isReply = false) : (f.step op).Delivered := by
  cases hd : f.done
  · -- not done yet: nothing has been delivered, and `Stop` delivers what is stored
    have hstore : ∀ r e, { f with result := r, err := e }.Delivered := fun r e =>
      delivered_of_not_done hf hd hd rfl
    cases op with
    | sendUserMessage m =>
      cases m
      · exact stop_delivered (hstore none (some .deadLetter))
      · exact stop_delivered (hstore (some _) f.err)
    | sendSystemMessage m => exact stop_delivered (hstore (some m) f.err)
    | timeout =>
      unfold step timeout
      rw [if_neg (by simp [hd])]
      exact stop_delivered (hstore f.result (some .timeout))
    | stop => exact stop_delivered hf
    | pipeTo pids =>
      show (f.pipeTo pids).Delivered
      unfold pipeTo
      rw [if_neg (by simp [hd])]
      exact delivered_of_not_done hf hd hd rfl
    | continueWith k =>
      show (f.continueWith k).Delivered
      unfold continueWith
      rw [if_neg (by simp [hd])]
      exact delivered_of_not_done hf hd hd rfl
  · -- done: replies are excluded, and the rest deliver the stored outcome at once
    cases op with
    | sendUserMessage m => simp [FutureOp.isReply, hd] at hop
    | sendSystemMessage m => simp [FutureOp.isReply, hd] at hop
    | timeout => simpa [step, timeout, hd] using hf
    | stop => exact stop_delivered hf
    | pipeTo pids =>
      simp only [step, pipeTo, hd, if_true]
      exact sendToPipes_delivered rfl (fun pid v hv => ⟨rfl, (hf.pipe_eq pid v hv).2⟩)
        (fun k r e hv => ⟨rfl, (hf.complete_eq k r e hv).2⟩) (hf.completions_nil hd)
    | continueWith k =>
      simp only [step, continueWith, hd, if_true]
      refine ⟨⟨hf.pipes_nil, hf.completions_nil⟩, ?_, ?_⟩
      · intro pid v hv
        simp only [emit, List.mem_append, List.mem_singleton, reduceCtorEq, or_false] at hv
        exact hf.pipe_eq pid v hv
      · intro k' r e hv
        simp only [emit, List.mem_append, List.mem_singleton, FutureEffect.complete.injEq] at hv
        rcases hv with hv | ⟨-, rfl, rfl⟩
        · exact hf.complete_eq k' r e hv
        · exact ⟨hd, rfl, rfl⟩

/-- No reply reaches the future once it is done. -/
def RepliesBeforeDone : Future α κ → List (FutureOp α κ) → Prop
  | _, [] => True
  | f, op :: ops => (f.done = true → op.isReply = false) ∧ RepliesBeforeDone (f.step op) ops

/-- **Write-once delivery.** Over every run in which no reply reaches the future after it is
done, each pipe target receives the final outcome and each completion the final `(result, err)`:
the values a later `Result()` reports. -/
theorem run_delivered {f : Future α κ} (hf : f.Delivered) (ops : List (FutureOp α κ))
    (h : RepliesBeforeDone f ops) : (f.run ops).Delivered := by
  induction ops generalizing f with
  | nil => exact hf
  | cons op ops ih => exact ih (step_delivered hf h.1) h.2

/-- Once done, a call that is not a reply leaves `done`, `result` and `err` as they are. -/
theorem step_outcome_of_done {f : Future α κ} (hd : f.done = true) {op : FutureOp α κ}
    (hop : op.isReply = false) :
    (f.step op).done = true ∧ (f.step op).result = f.result ∧ (f.step op).err = f.err := by
  cases op with
  | sendUserMessage m => simp [FutureOp.isReply] at hop
  | sendSystemMessage m => simp [FutureOp.isReply] at hop
  | timeout => simp [step, timeout, hd]
  | stop => simp [step, hd]
  | pipeTo pids => simp [step, pipeTo, hd, sendToPipes]
  | continueWith k => simp [step, continueWith, hd, emit]

/-- Once done, `result` and `err` never change again unless a reply arrives. -/
theorem run_outcome_of_done {f : Future α κ} (hd : f.done = true) (ops : List (FutureOp α κ))
    (hops : ∀ op ∈ ops, op.isReply = false) :
    (f.run ops).done = true ∧ (f.run ops).result = f.result ∧ (f.run ops).err = f.err := by
  induction ops generalizing f with
  | nil => exact ⟨hd, rfl, rfl⟩
  | cons op ops ih =>
    obtain ⟨hd₁, hr₁, he₁⟩ := step_outcome_of_done hd (hops op List.mem_cons_self)
    obtain ⟨hd₂, hr₂, he₂⟩ := ih hd₁ (fun op' h => hops op' (List.mem_cons_of_mem op h))
    exact ⟨hd₂, hr₂.trans hr₁, he₂.trans he₁⟩

/-- **A future delivers once.** Over any sequence of calls on a new future, every target passed
to `PipeTo` and every completion passed to `continueWith` is served once, in the order of
registration, or is still pending, and a done future has nothing pending.  If no reply reaches
the future once it is done, each target got the final `outcome` and each completion the final
`(result, err)`; and once it is done, no call but a reply changes them again. -/
theorem future_delivers_once (ops : List (FutureOp α κ)) :
    (Future.new.run ops).servedPipes = pipesOf ops ∧
    (Future.new.run ops).servedCompletions = completionsOf ops ∧
    ((Future.new.run ops).done = true →
      (Future.new.run ops).pipes = [] ∧ (Future.new.run ops).completions = []) ∧
    (RepliesBeforeDone Future.new ops → (Future.new.run ops).Delivered) ∧
    (∀ ops', (Future.new.run ops).done = true → (∀ op ∈ ops', op.isReply = false) →
      ((Future.new.run ops).run ops').result = (Future.new.run ops).result ∧
        ((Future.new.run ops).run ops').err = (Future.new.run ops).err) := by
  obtain ⟨hpipes, hpipes_nil⟩ := pipeTargets_run ops
  obtain ⟨hcompletions, hcompletions_nil⟩ := completions_run ops
  refine ⟨hpipes, hcompletions, fun hd => ⟨hpipes_nil hd, hcompletions_nil hd⟩,
    run_delivered delivered_new ops, ?_⟩
  intro ops' hd hops
  exact (run_outcome_of_done hd ops' hops).2

/-! ### A reply after completion -/

/-- The requester the future is piped to. -/
def requesterPID : PID :=
  ⟨"nonhost", "requester", 0⟩

/-- A future piped to `requesterPID` receives two replies: the requester is sent `1`, while
`result` ends as `2`. -/
theorem second_reply_overwrites_result :
    ((Future.new : Future Nat Unit).run
        [.pipeTo [requesterPID], .sendUserMessage (.message 1)]).outcome = .result (some 1) ∧
    let f := (Future.new : Future Nat Unit).run
      [.pipeTo [requesterPID], .sendUserMessage (.message 1), .sendUserMessage (.message 2)]
    f.done = true ∧ f.outcome = .result (some 2) ∧
      f.effects.filter (fun e => e matches .pipe _ _) = [.pipe requesterPID (.result (some 1))] := by
  decide

end Future

end ProtoActor.Actor
