import ProtoActor.Actor.Mailbox
import ProtoActor.Collections.Goring

/-!
# The endpoint writer's mailbox

`remote/endpoint_writer_mailbox.go`.  Producers post with `PostUserMessage` and
`PostSystemMessage`: push the message (user messages onto a goring queue, system messages onto
an mpsc queue, whose `Push` is its swap and then its link), store `hasMoreMessages`, and
compare-and-swap `schedulerStatus` from idle to running, starting `processMessages` when it
succeeds.  `processMessages` resets
`hasMoreMessages`, runs `run`, stores idle, and swaps `hasMoreMessages` back to no-messages: if
it was set, it tries the compare-and-swap again and goes round `run` once more.  `run` pops
system messages, then, unless the mailbox is suspended, up to `batchSize` user messages at once
with `PopMany`, until both come back empty.

Unlike the default mailbox, which loads message counters, this one consumes a single flag.  A
`processMessages` goroutine that has stored idle but not yet swapped the flag can still be there
when a post has started the next one: its swap then takes a flag set for the new round, its
compare-and-swap fails, and the new round, which had already looked, never sees it.

* `stale_swap_strands_message`: after three user posts interleaved so, the third message stays
  in the queue with the mailbox idle, not suspended, and no post or goroutine left.
* `single_run`: at most one goroutine is inside `run`, and one is exactly when the status is
  running.
* `batches_in_order`: every slice handed to `InvokeUserMessage` has between one and `batchSize`
  messages, and the slices, followed by the queue, are the user messages pushed, in order.
* `writer_mailbox_batches_in_order` states the two for every reachable state.
-/

namespace ProtoActor.Remote

open ProtoActor.Transition ProtoActor.Actor ProtoActor.Collections ProtoActor.Collections.Goring

variable {ν μ : Type}

/-- A posted message: a user message, which the mailbox only queues, or a system message,
`none` being a nil one. -/
inductive WriterPosted (ν μ : Type)
  | user (message : ν)
  | system (message : Option (SystemMessage μ))
  deriving DecidableEq

/-- Where a post is: before its push, before the link of the system node `node` it swapped in,
before its store of `hasMoreMessages`, before the compare-and-swap. -/
inductive WriterPostPc
  | push
  | link (node : ℕ)
  | storeHasMore
  | cas
  deriving DecidableEq

/-- A `PostUserMessage` or `PostSystemMessage` in progress. -/
structure WriterPost (ν μ : Type) where
  message : WriterPosted ν μ
  pc : WriterPostPc
  deriving DecidableEq

/-- Where a `processMessages` goroutine is: before resetting `hasMoreMessages`; in `run`, at
the system pop (with the load of `suspended` after a nil one) or at the user `PopMany`;
returned from `run` before storing idle; before the swap of `hasMoreMessages`; before the
compare-and-swap. -/
inductive WriterConsumerPc
  | resetHasMore
  | runTop
  | userPop
  | storeIdle
  | swap
  | cas
  deriving DecidableEq

/-- `endpointWriterMailbox`, with the posts and the `processMessages` goroutines in progress,
the slices and system messages handed to the invoker, and, as a ghost, the user messages
pushed, in order.  The system queue is its nodes after the tail, with the count of nodes it has
allocated. -/
structure EndpointWriterMailbox (ν μ : Type) where
  userMailbox : Queue ν
  systemMailbox : List (Mpsc.Slot (SystemMessage μ))
  sysNodes : ℕ
  schedulerStatus : SchedulerStatus
  hasMoreMessages : Bool
  batchSize : ℕ
  suspended : Bool
  posts : List (WriterPost ν μ)
  consumers : List WriterConsumerPc
  invokedUser : List (List (Option ν))
  invokedSystem : List (SystemMessage μ)
  pushedUser : List ν

namespace EndpointWriterMailbox

/-- The mailbox of `endpointWriterMailboxProducer(batchSize, initialSize)`. -/
def new (batchSize initialSize : ℕ) : EndpointWriterMailbox ν μ :=
  ⟨Collections.Goring.new initialSize, [], 1, .idle, false, batchSize, false, [], [], [], [], []⟩

/-! ### Posting -/

/-- The push onto the message's queue: the user queue's, or the swap of the system queue's. -/
def push (mb : EndpointWriterMailbox ν μ) : WriterPosted ν μ → EndpointWriterMailbox ν μ
  | .user m => { mb with userMailbox := mb.userMailbox.push m, pushedUser := mb.pushedUser ++ [m] }
  | .system m =>
    { mb with
      systemMailbox := Mpsc.Slots.swap mb.systemMailbox mb.sysNodes m
      sysNodes := mb.sysNodes + 1 }

/-- Where a post goes after its push: a system post on to the link of the node it swapped in. -/
def afterPush (mb : EndpointWriterMailbox ν μ) : WriterPosted ν μ → WriterPostPc
  | .user _ => .storeHasMore
  | .system _ => .link mb.sysNodes

/-- `schedule`'s compare-and-swap from idle to running; on success the dispatcher starts
`processMessages`. -/
def schedule (mb : EndpointWriterMailbox ν μ) : EndpointWriterMailbox ν μ :=
  match mb.schedulerStatus with
  | .idle => { mb with schedulerStatus := .running, consumers := mb.consumers ++ [.resetHasMore] }
  | .running => mb

/-- One step of the post `p`, found between `pre` and `post` among the posts. -/
def postStep (mb : EndpointWriterMailbox ν μ) (pre post : List (WriterPost ν μ))
    (p : WriterPost ν μ) : EndpointWriterMailbox ν μ :=
  match p.pc with
  | .push => { mb.push p.message with posts := pre ++ ⟨p.message, mb.afterPush p.message⟩ :: post }
  | .link node =>
    { mb with
      systemMailbox := Mpsc.Slots.link mb.systemMailbox node
      posts := pre ++ ⟨p.message, .storeHasMore⟩ :: post }
  | .storeHasMore => { mb with hasMoreMessages := true, posts := pre ++ ⟨p.message, .cas⟩ :: post }
  | .cas => { mb with posts := pre ++ post }.schedule

/-! ### Processing -/

/-- One step of the goroutine `c`, found between `pre` and `post` among the goroutines; leaving
the list is returning from `processMessages`. -/
def consumerStep (mb : EndpointWriterMailbox ν μ) (pre post : List WriterConsumerPc)
    (c : WriterConsumerPc) : EndpointWriterMailbox ν μ :=
  let set (c' : WriterConsumerPc) (mb : EndpointWriterMailbox ν μ) : EndpointWriterMailbox ν μ :=
    { mb with consumers := pre ++ c' :: post }
  match c with
  | .resetHasMore => set .runTop { mb with hasMoreMessages := false }
  | .runTop =>
    -- `systemMailbox.Pop()`: a nil message, and a first node not linked yet, read as an empty
    -- queue
    let mb' := { mb with systemMailbox := (Mpsc.Slots.pop mb.systemMailbox).2 }
    match (Mpsc.Slots.pop mb.systemMailbox).1 with
    | some .suspendMailbox => set .runTop { mb' with suspended := true }
    | some .resumeMailbox => set .runTop { mb' with suspended := false }
    | some m => set .runTop { mb' with invokedSystem := mb.invokedSystem ++ [m] }
    | none => if mb.suspended then set .storeIdle mb' else set .userPop mb'
  | .userPop =>
    let r := mb.userMailbox.popMany mb.batchSize
    if r.1.2 then set .runTop { mb with userMailbox := r.2, invokedUser := mb.invokedUser ++ [r.1.1] }
    else set .storeIdle { mb with userMailbox := r.2 }
  | .storeIdle => set .swap { mb with schedulerStatus := .idle }
  | .swap =>
    if mb.hasMoreMessages then set .cas { mb with hasMoreMessages := false }
    else { mb with consumers := pre ++ post }
  | .cas =>
    match mb.schedulerStatus with
    | .idle => set .runTop { mb with schedulerStatus := .running }
    | .running => { mb with consumers := pre ++ post }

/-- One atomic operation of a post or of a `processMessages` goroutine. -/
inductive Progress : EndpointWriterMailbox ν μ → EndpointWriterMailbox ν μ → Prop
  | post (mb : EndpointWriterMailbox ν μ) (pre post : List (WriterPost ν μ)) (p : WriterPost ν μ)
      (h : mb.posts = pre ++ p :: post) : Progress mb (mb.postStep pre post p)
  | consume (mb : EndpointWriterMailbox ν μ) (pre post : List WriterConsumerPc)
      (c : WriterConsumerPc) (h : mb.consumers = pre ++ c :: post) :
      Progress mb (mb.consumerStep pre post c)

/-- A step of the mailbox: an operation in progress, or a producer starting a post. -/
inductive Step : EndpointWriterMailbox ν μ → EndpointWriterMailbox ν μ → Prop
  | progress {mb mb' : EndpointWriterMailbox ν μ} (h : Progress mb mb') : Step mb mb'
  | begin (mb : EndpointWriterMailbox ν μ) (message : WriterPosted ν μ) :
      Step mb { mb with posts := mb.posts ++ [⟨message, .push⟩] }

/-! ### Replaying an interleaving -/

/-- A choice of the scheduler: a new post, or a step of the post or goroutine at an index. -/
inductive Move (ν μ : Type)
  | begin (message : WriterPosted ν μ)
  | post (i : ℕ)
  | consume (i : ℕ)

/-- The mailbox after a move, if the index names a post or goroutine. -/
def move? (mb : EndpointWriterMailbox ν μ) : Move ν μ → Option (EndpointWriterMailbox ν μ)
  | .begin message => some { mb with posts := mb.posts ++ [⟨message, .push⟩] }
  | .post i => mb.posts[i]?.map fun p => mb.postStep (mb.posts.take i) (mb.posts.drop (i + 1)) p
  | .consume i =>
    mb.consumers[i]?.map fun c => mb.consumerStep (mb.consumers.take i) (mb.consumers.drop (i + 1)) c

theorem step_of_move? {mb mb' : EndpointWriterMailbox ν μ} {mv : Move ν μ}
    (h : mb.move? mv = some mb') : Step mb mb' := by
  cases mv with
  | begin message =>
    simp only [move?, Option.some.injEq] at h
    exact h ▸ Step.begin mb message
  | post i =>
    simp only [move?, Option.map_eq_some_iff] at h
    obtain ⟨p, hp, rfl⟩ := h
    exact .progress (.post mb _ _ p (eq_take_append_cons_drop hp))
  | consume i =>
    simp only [move?, Option.map_eq_some_iff] at h
    obtain ⟨c, hc, rfl⟩ := h
    exact .progress (.consume mb _ _ c (eq_take_append_cons_drop hc))

/-! ### A message stranded by a stale swap -/

/-- Three user posts on a mailbox with batches of one and a goring queue of one slot.  The
second post starts a new round while the first round's goroutine waits before its swap; the
third is posted while the new round is returning from `run`, and the old goroutine's swap takes
the flag it set. -/
def strandingTrace : List (Move ℕ Unit) :=
  [.begin (.user 1), .post 0, .post 0, .post 0,
    -- the first round delivers `1` and stops before its swap
    .consume 0, .consume 0, .consume 0, .consume 0, .consume 0, .consume 0,
    .begin (.user 2), .post 0, .post 0, .post 0,
    -- the second round delivers `2` and returns from `run`
    .consume 1, .consume 1, .consume 1, .consume 1, .consume 1,
    -- `3` is pushed and flagged; the compare-and-swap fails, the status being running
    .begin (.user 3), .post 0, .post 0, .post 0,
    -- the first round swaps the flag and fails its compare-and-swap; the second stores idle
    -- and finds no flag
    .consume 0, .consume 0, .consume 0, .consume 0]

/-- Nothing left to run, the mailbox idle and not suspended, and `3` still queued. -/
def strandedTest (mb : EndpointWriterMailbox ℕ Unit) : Bool :=
  mb.posts.isEmpty && mb.consumers.isEmpty && mb.schedulerStatus == .idle && !mb.suspended &&
    mb.userMailbox.len == 1 && mb.pushedUser == [1, 2, 3] && mb.invokedUser == [[some 1], [some 2]]

theorem stale_swap_strands_message :
    ∃ mb : EndpointWriterMailbox ℕ Unit, Reachable (· = new 1 1) Step mb ∧ mb.posts = [] ∧
      mb.consumers = [] ∧ mb.schedulerStatus = .idle ∧ mb.suspended = false ∧
      mb.userMailbox.len = 1 ∧ mb.pushedUser = [1, 2, 3] ∧ mb.invokedUser = [[some 1], [some 2]] := by
  obtain ⟨mb, hreach, htest⟩ := @exists_reachable_of_replay _ _ (· = new 1 1) Step move?
    (fun _ _ _ h => step_of_move? h) (new 1 1) rfl strandingTrace strandedTest (by decide)
  simp only [strandedTest, Bool.and_eq_true, List.isEmpty_iff, beq_iff_eq, Bool.not_eq_true'] at htest
  obtain ⟨⟨⟨⟨⟨⟨hposts, hcons⟩, hidle⟩, hsus⟩, hlen⟩, hpushed⟩, hinvoked⟩ := htest
  exact ⟨mb, hreach, hposts, hcons, hidle, hsus, hlen, hpushed, hinvoked⟩

end EndpointWriterMailbox

/-! ### One goroutine in `run` -/

namespace WriterConsumerPc

/-- Holding the running status: about to enter `run`, inside it, or returned from it before
storing idle. -/
def inRun : WriterConsumerPc → Bool
  | .resetHasMore | .runTop | .userPop | .storeIdle => true
  | .swap | .cas => false

end WriterConsumerPc

namespace EndpointWriterMailbox

variable {mb : EndpointWriterMailbox ν μ}

/-- What a goroutine's step does to the goroutines and the status: it moves within `run` or
after it, stores idle on leaving `run`, returns after it, or wins the compare-and-swap and goes
round again. -/
theorem consumerStep_cases (mb : EndpointWriterMailbox ν μ) (pre post : List WriterConsumerPc)
    (c : WriterConsumerPc) :
    ((mb.consumerStep pre post c).schedulerStatus = mb.schedulerStatus ∧
        ∃ c', (mb.consumerStep pre post c).consumers = pre ++ c' :: post ∧ c'.inRun = c.inRun) ∨
      (c = .storeIdle ∧ (mb.consumerStep pre post c).schedulerStatus = .idle ∧
        (mb.consumerStep pre post c).consumers = pre ++ .swap :: post) ∨
      (c.inRun = false ∧ (mb.consumerStep pre post c).schedulerStatus = mb.schedulerStatus ∧
        (mb.consumerStep pre post c).consumers = pre ++ post) ∨
      (c = .cas ∧ mb.schedulerStatus = .idle ∧
        (mb.consumerStep pre post c).schedulerStatus = .running ∧
        (mb.consumerStep pre post c).consumers = pre ++ .runTop :: post) := by
  cases c with
  | resetHasMore => exact .inl ⟨rfl, .runTop, rfl, rfl⟩
  | runTop =>
    -- every outcome of the system pop stays within `run`, or returns from it
    refine .inl ?_
    simp only [consumerStep]
    split
    · exact ⟨rfl, .runTop, rfl, rfl⟩
    · exact ⟨rfl, .runTop, rfl, rfl⟩
    · exact ⟨rfl, .runTop, rfl, rfl⟩
    · split
      · exact ⟨rfl, .storeIdle, rfl, rfl⟩
      · exact ⟨rfl, .userPop, rfl, rfl⟩
  | userPop =>
    refine .inl ?_
    simp only [consumerStep]
    split
    · exact ⟨rfl, .runTop, rfl, rfl⟩
    · exact ⟨rfl, .storeIdle, rfl, rfl⟩
  | storeIdle => exact .inr (.inl ⟨rfl, rfl, rfl⟩)
  | swap =>
    simp only [consumerStep]
    split
    · exact .inl ⟨rfl, .cas, rfl, rfl⟩
    · exact .inr (.inr (.inl ⟨rfl, rfl, rfl⟩))
  | cas =>
    simp only [consumerStep]
    split
    · rename_i hidle
      exact .inr (.inr (.inr ⟨trivial, hidle, rfl, rfl⟩))
    · exact .inr (.inr (.inl ⟨rfl, rfl, rfl⟩))

/-- One goroutine holds the running status while it is running, none while it is idle. -/
def SingleRun (mb : EndpointWriterMailbox ν μ) : Prop :=
  mb.consumers.countP WriterConsumerPc.inRun = mb.schedulerStatus.runs

theorem singleRun_postStep {pre post : List (WriterPost ν μ)} {p : WriterPost ν μ}
    (hs : mb.SingleRun) : (mb.postStep pre post p).SingleRun := by
  obtain ⟨m, pc⟩ := p
  cases pc with
  | push => cases m <;> exact hs
  | link _ => exact hs
  | storeHasMore => exact hs
  | cas =>
    -- the compare-and-swap succeeds only while idle, and starts one goroutine
    unfold SingleRun at hs ⊢
    simp only [postStep, schedule]
    cases hst : mb.schedulerStatus with
    | idle => simp_all [WriterConsumerPc.inRun]
    | running => simpa [hst] using hs

theorem singleRun_consumerStep {pre post : List WriterConsumerPc} {c : WriterConsumerPc}
    (h : mb.consumers = pre ++ c :: post) (hs : mb.SingleRun) :
    (mb.consumerStep pre post c).SingleRun := by
  unfold SingleRun at hs ⊢
  rw [h, countP_pick] at hs
  rcases consumerStep_cases mb pre post c with ⟨hst, c', hc', hin⟩ | ⟨rfl, hst, hc'⟩ |
    ⟨hin, hst, hc'⟩ | ⟨rfl, hidle, hst, hc'⟩
  · rw [hc', hst, countP_pick, hin]
    exact hs
  · -- storing idle: the goroutine leaves `run`, which it held while running
    rw [hc', hst, countP_pick]
    cases hrun : mb.schedulerStatus <;> simp_all [WriterConsumerPc.inRun]
  · rw [hc', hst]
    simpa [hin] using hs
  · -- winning the compare-and-swap while idle: nobody else is in `run`
    rw [hc', hst, countP_pick]
    simp_all [WriterConsumerPc.inRun]

theorem singleRun_step {mb mb' : EndpointWriterMailbox ν μ} (hstep : Step mb mb')
    (hs : mb.SingleRun) : mb'.SingleRun := by
  cases hstep with
  | progress hp =>
    cases hp with
    | post _ _ _ _ => exact singleRun_postStep hs
    | consume _ _ _ h => exact singleRun_consumerStep h hs
  | begin _ => exact hs

/-- At most one goroutine is inside `run` (or about to enter it, or leaving it), and one is
exactly when the status is running. -/
theorem single_run {batchSize initialSize : ℕ} {mb : EndpointWriterMailbox ν μ}
    (h : Reachable (· = new batchSize initialSize) Step mb) :
    mb.consumers.countP WriterConsumerPc.inRun ≤ 1 ∧
      (mb.consumers.countP WriterConsumerPc.inRun = 1 ↔ mb.schedulerStatus = .running) := by
  have hs : mb.SingleRun :=
    reachable_induction (P := SingleRun) (fun _ h => by subst h; rfl)
      (fun _ _ hs hstep => singleRun_step hstep hs) mb h
  unfold SingleRun at hs
  rw [hs]
  cases mb.schedulerStatus <;> simp

end EndpointWriterMailbox

/-! ### Batches, in order -/

namespace EndpointWriterMailbox

variable {mb : EndpointWriterMailbox ν μ}

/-- `schedule` touches only the status and the goroutines. -/
theorem schedule_eq (mb : EndpointWriterMailbox ν μ) :
    ∃ st cs, mb.schedule = { mb with schedulerStatus := st, consumers := cs } := by
  unfold schedule
  split
  · exact ⟨_, _, rfl⟩
  · exact ⟨mb.schedulerStatus, mb.consumers, rfl⟩

/-- What a post's step does to the user queue: nothing, or the push of its user message. -/
theorem postStep_user (mb : EndpointWriterMailbox ν μ) (pre post : List (WriterPost ν μ))
    (p : WriterPost ν μ) :
    (mb.postStep pre post p).batchSize = mb.batchSize ∧
      (mb.postStep pre post p).invokedUser = mb.invokedUser ∧
      (((mb.postStep pre post p).userMailbox = mb.userMailbox ∧
          (mb.postStep pre post p).pushedUser = mb.pushedUser) ∨
        ∃ m, (mb.postStep pre post p).userMailbox = mb.userMailbox.push m ∧
          (mb.postStep pre post p).pushedUser = mb.pushedUser ++ [m]) := by
  obtain ⟨message, pc⟩ := p
  cases pc with
  | push =>
    cases message with
    | user m => exact ⟨rfl, rfl, .inr ⟨m, rfl, rfl⟩⟩
    | system m => exact ⟨rfl, rfl, .inl ⟨rfl, rfl⟩⟩
  | link _ => exact ⟨rfl, rfl, .inl ⟨rfl, rfl⟩⟩
  | storeHasMore => exact ⟨rfl, rfl, .inl ⟨rfl, rfl⟩⟩
  | cas =>
    obtain ⟨st, cs, hsched⟩ := schedule_eq { mb with posts := pre ++ post }
    have hstep : mb.postStep pre post ⟨message, .cas⟩ =
        { { mb with posts := pre ++ post } with schedulerStatus := st, consumers := cs } := hsched
    rw [hstep]
    exact ⟨rfl, rfl, .inl ⟨rfl, rfl⟩⟩

/-- What a goroutine's step does to the user queue: nothing, or the `PopMany` of `run`, whose
slice is handed on when it returns one. -/
theorem consumerStep_user (mb : EndpointWriterMailbox ν μ) (pre post : List WriterConsumerPc)
    (c : WriterConsumerPc) :
    (mb.consumerStep pre post c).batchSize = mb.batchSize ∧
      (mb.consumerStep pre post c).pushedUser = mb.pushedUser ∧
      (((mb.consumerStep pre post c).userMailbox = mb.userMailbox ∧
          (mb.consumerStep pre post c).invokedUser = mb.invokedUser) ∨
        ((mb.consumerStep pre post c).userMailbox = (mb.userMailbox.popMany mb.batchSize).2 ∧
          (mb.consumerStep pre post c).invokedUser = mb.invokedUser ++
            if (mb.userMailbox.popMany mb.batchSize).1.2 then
              [(mb.userMailbox.popMany mb.batchSize).1.1] else [])) := by
  cases c with
  | resetHasMore => exact ⟨rfl, rfl, .inl ⟨rfl, rfl⟩⟩
  | runTop =>
    simp only [consumerStep]
    split
    · exact ⟨rfl, rfl, .inl ⟨rfl, rfl⟩⟩
    · exact ⟨rfl, rfl, .inl ⟨rfl, rfl⟩⟩
    · exact ⟨rfl, rfl, .inl ⟨rfl, rfl⟩⟩
    · split
      · exact ⟨rfl, rfl, .inl ⟨rfl, rfl⟩⟩
      · exact ⟨rfl, rfl, .inl ⟨rfl, rfl⟩⟩
  | userPop =>
    -- the batch popped is handed on exactly when `PopMany` says ok
    simp only [consumerStep]
    split
    · exact ⟨rfl, rfl, .inr ⟨rfl, by simp⟩⟩
    · exact ⟨rfl, rfl, .inr ⟨rfl, by simp⟩⟩
  | storeIdle => exact ⟨rfl, rfl, .inl ⟨rfl, rfl⟩⟩
  | swap =>
    simp only [consumerStep]
    split
    · exact ⟨rfl, rfl, .inl ⟨rfl, rfl⟩⟩
    · exact ⟨rfl, rfl, .inl ⟨rfl, rfl⟩⟩
  | cas =>
    simp only [consumerStep]
    split
    · exact ⟨rfl, rfl, .inl ⟨rfl, rfl⟩⟩
    · exact ⟨rfl, rfl, .inl ⟨rfl, rfl⟩⟩

/-- The slices handed on have between one and `b` messages, and they, followed by the live
elements of the user queue, are the user messages pushed, in order. -/
structure Delivered (b : ℕ) (mb : EndpointWriterMailbox ν μ) : Prop where
  batchSize_eq : mb.batchSize = b
  slices : ∀ s ∈ mb.invokedUser, s ≠ [] ∧ s.length ≤ b
  queue : ∃ l, mb.userMailbox.Refines l ∧ mb.invokedUser.flatten ++ l.map some = mb.pushedUser.map some

variable {b : ℕ}

theorem Delivered.postStep (h : mb.Delivered b) (pre post : List (WriterPost ν μ))
    (p : WriterPost ν μ) : (mb.postStep pre post p).Delivered b := by
  obtain ⟨hbatch, hinvoked, hcases⟩ := postStep_user mb pre post p
  obtain ⟨l, hq, hflat⟩ := h.queue
  refine ⟨hbatch.trans h.batchSize_eq, hinvoked ▸ h.slices, ?_⟩
  rcases hcases with ⟨hu, hp⟩ | ⟨m, hu, hp⟩
  · exact ⟨l, hu ▸ hq, by rw [hinvoked, hp]; exact hflat⟩
  · -- the pushed message joins the queue and the ghost list alike
    refine ⟨l ++ [m], hu ▸ hq.push m, ?_⟩
    rw [hinvoked, hp, List.map_append, List.map_append, ← List.append_assoc, hflat]

theorem Delivered.consumerStep (h : mb.Delivered b) (hb : 1 ≤ b) (pre post : List WriterConsumerPc)
    (c : WriterConsumerPc) : (mb.consumerStep pre post c).Delivered b := by
  obtain ⟨hbatch, hpushed, hcases⟩ := consumerStep_user mb pre post c
  obtain ⟨l, hq, hflat⟩ := h.queue
  refine ⟨hbatch.trans h.batchSize_eq, ?_, ?_⟩
  all_goals rcases hcases with ⟨hu, hi⟩ | ⟨hu, hi⟩
  · exact hi ▸ h.slices
  · -- a slice handed on is the first `b` live elements, and the queue is not empty
    rw [hi]
    rcases l with _ | ⟨x, l⟩
    · rw [hq.popMany_nil]
      simpa using h.slices
    · obtain ⟨hout, -⟩ := hq.popMany (List.cons_ne_nil x l) mb.batchSize
      rw [hout, if_pos rfl]
      intro s hs
      rcases List.mem_append.mp hs with hs | hs
      · exact h.slices s hs
      · rw [List.mem_singleton] at hs
        subst hs
        rw [h.batchSize_eq]
        dsimp only
        have hlen : (List.map some (List.take b (x :: l))).length = min b (l.length + 1) := by
          simp only [List.length_map, List.length_take, List.length_cons]
        exact ⟨List.ne_nil_of_length_pos (by omega), by omega⟩
  · exact ⟨l, hu ▸ hq, by rw [hi, hpushed]; exact hflat⟩
  · -- the queue loses the slice the invoker gains
    rw [hu, hi, hpushed]
    rcases l with _ | ⟨x, l⟩
    · rw [hq.popMany_nil]
      exact ⟨[], hq, by simpa using hflat⟩
    · obtain ⟨hout, hrest⟩ := hq.popMany (List.cons_ne_nil x l) mb.batchSize
      refine ⟨(x :: l).drop mb.batchSize, hrest, ?_⟩
      rw [hout, if_pos rfl, List.flatten_append, List.flatten_singleton, List.append_assoc,
        ← List.map_append, List.take_append_drop]
      exact hflat

theorem Delivered.step (h : mb.Delivered b) (hb : 1 ≤ b) {mb' : EndpointWriterMailbox ν μ}
    (hstep : Step mb mb') : mb'.Delivered b := by
  cases hstep with
  | progress hp =>
    cases hp with
    | post pre post p _ => exact h.postStep pre post p
    | consume pre post c _ => exact h.consumerStep hb pre post c
  | begin _ => exact ⟨h.batchSize_eq, h.slices, h.queue⟩

/-- Every slice handed to `InvokeUserMessage` has between one and `batchSize` messages, and the
slices, followed by the live elements of the user queue, are the user messages pushed, in
order: none is lost, repeated or reordered. -/
theorem batches_in_order {batchSize initialSize : ℕ} (hb : 1 ≤ batchSize) (hi : 1 ≤ initialSize)
    {mb : EndpointWriterMailbox ν μ} (h : Reachable (· = new batchSize initialSize) Step mb) :
    (∀ s ∈ mb.invokedUser, s ≠ [] ∧ s.length ≤ batchSize) ∧
      ∃ l, mb.userMailbox.Refines l ∧ mb.invokedUser.flatten ++ l.map some = mb.pushedUser.map some := by
  have hd : mb.Delivered batchSize :=
    reachable_induction (P := Delivered batchSize)
      (fun _ h => by
        subst h
        exact ⟨rfl, by simp [new], [], refines_new initialSize hi, by simp [new]⟩)
      (fun _ _ hd hstep => hd.step hb hstep) mb h
  exact ⟨hd.slices, hd.queue⟩

/-- **One `run`, batches in order.** In every reachable state of the writer's mailbox, at most one
goroutine is inside `run`, and one is exactly when the status is running; every slice handed to
`InvokeUserMessage` has between one and `batchSize` messages; and the slices, followed by the
queue, are the user messages pushed, in order. -/
theorem writer_mailbox_batches_in_order {batchSize initialSize : ℕ} (hb : 1 ≤ batchSize)
    (hi : 1 ≤ initialSize) {mb : EndpointWriterMailbox ν μ}
    (h : Reachable (· = new batchSize initialSize) Step mb) :
    mb.consumers.countP WriterConsumerPc.inRun ≤ 1 ∧
      (mb.consumers.countP WriterConsumerPc.inRun = 1 ↔ mb.schedulerStatus = .running) ∧
      (∀ s ∈ mb.invokedUser, s ≠ [] ∧ s.length ≤ batchSize) ∧
      ∃ l, mb.userMailbox.Refines l ∧ mb.invokedUser.flatten ++ l.map some = mb.pushedUser.map some :=
  ⟨(single_run h).1, (single_run h).2, batches_in_order hb hi h⟩

/-- The writer's mailbox at the end of `strandingTrace`. -/
def strandedWriter : EndpointWriterMailbox ℕ Unit :=
  (replay move? (new 1 1) strandingTrace).getD (new 1 1)

theorem writer_mailbox_batches_in_order_strandedWriter :
    1 ≤ 1 ∧ Reachable (· = new 1 1) Step strandedWriter ∧
      (∀ s ∈ strandedWriter.invokedUser, s ≠ [] ∧ s.length ≤ 1) ∧
      ∃ l, strandedWriter.userMailbox.Refines l ∧
        strandedWriter.invokedUser.flatten ++ l.map some = strandedWriter.pushedUser.map some := by
  have hnext : ∀ (mb : EndpointWriterMailbox ℕ Unit) mv mb', mb.move? mv = some mb' → Step mb mb' :=
    fun _ _ _ h => step_of_move? h
  have hreplay : replay move? (new 1 1) strandingTrace = some strandedWriter := rfl
  have hreach : Reachable (· = new 1 1) Step strandedWriter :=
    reachable_of_replay hnext strandingTrace (Reachable.of_init rfl) hreplay
  obtain ⟨-, -, hslices, hqueue⟩ :=
    writer_mailbox_batches_in_order (Nat.le_refl 1) (Nat.le_refl 1) hreach
  exact ⟨Nat.le_refl 1, hreach, hslices, hqueue⟩

end EndpointWriterMailbox

end ProtoActor.Remote
