import ProtoActor.Actor.ActorContext
import ProtoActor.Collections.Mpsc

/-!
# The default mailbox

`actor/mailbox.go` with the unbounded user queue of `actor/unbounded.go`.  Producers post with
`PostUserMessage` and `PostSystemMessage`: push the message, increment the queue's counter, and
`schedule`, a compare-and-swap of `schedulerStatus` from idle to running that, when it succeeds,
has the dispatcher start `processMessages`.  The user queue pushes under its lock; the system
queue is the mpsc queue of `Mpsc.lean`, whose `Push` is two steps, the swap of its node into the
head and the link from the node before, and whose `Pop` stops at a node not linked yet.  `processMessages` runs `run`, which pops system
messages, then user messages while the mailbox is not suspended, until a pop returns nil; then
it stores idle, loads both counters, and if work is left tries the compare-and-swap again to go
round once more.

`Mailbox` holds the queues, the counters and the status, each post in progress with its program
point, and each `processMessages` goroutine with its own.  A step is one atomic operation of one
of them (`Progress`), or the start of a new post (`MailboxStep`), in any interleaving.  A nil
message is `none`: both queues return it as `nil`, which `run` takes for an empty queue, and
the system queue also returns `nil` while its first node is not linked.

Main results, over every reachable state:

* `single_run`: at most one goroutine is inside `run`, and one is exactly when the status is
  running.
* `no_stranded_message`: when no post is in progress and no `processMessages` is left, the system
  queue is empty, and so is the user queue unless the mailbox is suspended.  (The status alone
  does not tell: between its store of idle and its loads a goroutine may still find work.)

Each counter runs ahead of the messages it should count by a slack (`sysSlack`, `userSlack`)
that no post changes and only the pop of a nil message raises, since `run` takes a nil message
for an empty queue and never decrements its count.

* `counters_exact`: in a run in which no message posted is nil, each counter equals the length
  of its queue whenever no post is between its push and its increment (its link included) and no
  goroutine between its pop and its decrement.
* `mailbox_schedules_one_run` states the three for every reachable state.
* `nil_user_message_spins`: after a nil user message is popped, the counter stays at one over
  empty queues, and `processMessages` goes round forever.

The load of `suspended`, which the source makes in the condition after the loads of the
counters, is a step of its own, as is its load in `run` after the system pop.
-/

namespace ProtoActor.Actor

open ProtoActor.Transition ProtoActor.Collections

variable {μ : Type}

/-- A posted message, to the user or to the system queue; `none` is a nil message. -/
inductive Posted (μ : Type)
  | user (message : Option μ)
  | system (message : Option (SystemMessage μ))
  deriving DecidableEq, Repr

/-- `schedulerStatus`. -/
inductive SchedulerStatus
  | idle
  | running
  deriving DecidableEq, Repr

/-- Where a post is: before its push, before the link of the system node `node` it swapped in,
before its counter increment, before `schedule`. -/
inductive PostPc
  | push
  | link (node : ℕ)
  | increment
  | schedule
  deriving DecidableEq, Repr

/-- A `PostUserMessage` or `PostSystemMessage` in progress. -/
structure Post (μ : Type) where
  message : Posted μ
  pc : PostPc
  deriving DecidableEq, Repr

/-- Where a `processMessages` goroutine is.  In `run`: at the top of its loop (the system pop),
before loading `suspended` when no system message was found, at the user pop, after popping a
message and before decrementing its counter, and returned from `run` before storing idle; after
`run`: before loading `sysMessages`, before loading `userMessages` (with the system count loaded),
before loading `suspended` (with the user count loaded, the system count being zero or less), and
before the compare-and-swap. -/
inductive ConsumerPc (μ : Type)
  | runTop
  | loadSuspendedInRun
  | userPop
  | sysDecrement (message : SystemMessage μ)
  | userDecrement (message : μ)
  | storeIdle
  | loadSys
  | loadUser (sys : Int)
  | loadSuspended (user : Int)
  | cas
  deriving DecidableEq, Repr

/-- `defaultMailbox`, with the posts and the `processMessages` goroutines in progress, and the
messages handed to the invoker, in order.  The system queue is its nodes after the tail, with the
count of nodes it has allocated, which the next node's pointer is.  The counters are `int32`s
that never overflow here. -/
structure Mailbox (μ : Type) where
  userMailbox : List (Option μ)
  systemMailbox : List (Mpsc.Slot (SystemMessage μ))
  sysNodes : ℕ
  schedulerStatus : SchedulerStatus
  userMessages : Int
  sysMessages : Int
  suspended : Bool
  posts : List (Post μ)
  consumers : List (ConsumerPc μ)
  invoked : List (Posted μ)
  deriving DecidableEq, Repr

namespace Mailbox

/-- A new mailbox; `mpsc.New` allocates the stub. -/
def new : Mailbox μ :=
  ⟨[], [], 1, .idle, 0, 0, false, [], [], []⟩

/-! ### Posting -/

/-- The push onto the message's queue: the user queue's, or the swap of the system queue's, which
takes the next node. -/
def push (mb : Mailbox μ) : Posted μ → Mailbox μ
  | .user m => { mb with userMailbox := mb.userMailbox ++ [m] }
  | .system m =>
    { mb with
      systemMailbox := Mpsc.Slots.swap mb.systemMailbox mb.sysNodes m
      sysNodes := mb.sysNodes + 1 }

/-- Where a post goes after its push: a system post on to the link of the node it swapped in. -/
def afterPush (mb : Mailbox μ) : Posted μ → PostPc
  | .user _ => .increment
  | .system _ => .link mb.sysNodes

/-- The link of the system queue's `Push`: the node before `node` links to it. -/
def link (mb : Mailbox μ) (node : ℕ) : Mailbox μ :=
  { mb with systemMailbox := Mpsc.Slots.link mb.systemMailbox node }

/-- `atomic.AddInt32` of one to the message's counter. -/
def increment (mb : Mailbox μ) : Posted μ → Mailbox μ
  | .user _ => { mb with userMessages := mb.userMessages + 1 }
  | .system _ => { mb with sysMessages := mb.sysMessages + 1 }

/-- `schedule`: the compare-and-swap from idle to running; on success the dispatcher starts
`processMessages`. -/
def schedule (mb : Mailbox μ) : Mailbox μ :=
  match mb.schedulerStatus with
  | .idle => { mb with schedulerStatus := .running, consumers := mb.consumers ++ [.runTop] }
  | .running => mb

/-- One step of the post `p`, found between `pre` and `post` among the posts. -/
def postStep (mb : Mailbox μ) (pre post : List (Post μ)) (p : Post μ) : Mailbox μ :=
  match p.pc with
  | .push => { mb.push p.message with posts := pre ++ ⟨p.message, mb.afterPush p.message⟩ :: post }
  | .link node => { mb.link node with posts := pre ++ ⟨p.message, .increment⟩ :: post }
  | .increment => { mb.increment p.message with posts := pre ++ ⟨p.message, .schedule⟩ :: post }
  | .schedule => { mb with posts := pre ++ post }.schedule

/-! ### Processing -/

/-- One step of the goroutine `c`, found between `pre` and `post` among the goroutines; `set`
moves it to its next point, and leaving the list is returning from `processMessages`. -/
def consumerStep (mb : Mailbox μ) (pre post : List (ConsumerPc μ)) (c : ConsumerPc μ) :
    Mailbox μ :=
  let set (c' : ConsumerPc μ) (mb : Mailbox μ) : Mailbox μ := { mb with consumers := pre ++ c' :: post }
  match c with
  | .runTop =>
    -- `systemMailbox.Pop()`: a nil message, and a first node not linked yet, read as an empty
    -- queue
    let popped := Mpsc.Slots.pop mb.systemMailbox
    match popped.1 with
    | some m => set (.sysDecrement m) { mb with systemMailbox := popped.2 }
    | none => set .loadSuspendedInRun { mb with systemMailbox := popped.2 }
  | .loadSuspendedInRun => if mb.suspended then set .storeIdle mb else set .userPop mb
  | .userPop =>
    match mb.userMailbox.head?.bind id with
    | some m => set (.userDecrement m) { mb with userMailbox := mb.userMailbox.tail }
    | none => set .storeIdle { mb with userMailbox := mb.userMailbox.tail }
  | .sysDecrement m =>
    let mb := { mb with sysMessages := mb.sysMessages - 1 }
    match m with
    | .suspendMailbox => set .runTop { mb with suspended := true }
    | .resumeMailbox => set .runTop { mb with suspended := false }
    | _ => set .runTop { mb with invoked := mb.invoked ++ [.system (some m)] }
  | .userDecrement m =>
    set .runTop { mb with userMessages := mb.userMessages - 1, invoked := mb.invoked ++ [.user (some m)] }
  | .storeIdle => set .loadSys { mb with schedulerStatus := .idle }
  | .loadSys => set (.loadUser mb.sysMessages) mb
  | .loadUser sys =>
    -- `sys > 0` short-circuits the load of `suspended`
    if 0 < sys then set .cas mb else set (.loadSuspended mb.userMessages) mb
  | .loadSuspended user =>
    if mb.suspended = false ∧ 0 < user then set .cas mb else { mb with consumers := pre ++ post }
  | .cas =>
    match mb.schedulerStatus with
    | .idle => set .runTop { mb with schedulerStatus := .running }
    | .running => { mb with consumers := pre ++ post }

end Mailbox

/-- One atomic operation of a post or of a `processMessages` goroutine. -/
inductive Progress : Mailbox μ → Mailbox μ → Prop
  | post (mb : Mailbox μ) (pre post : List (Post μ)) (p : Post μ) (h : mb.posts = pre ++ p :: post) :
      Progress mb (mb.postStep pre post p)
  | consume (mb : Mailbox μ) (pre post : List (ConsumerPc μ)) (c : ConsumerPc μ)
      (h : mb.consumers = pre ++ c :: post) :
      Progress mb (mb.consumerStep pre post c)

/-- A step of the mailbox: an operation in progress, or a producer starting a post. -/
inductive MailboxStep : Mailbox μ → Mailbox μ → Prop
  | progress {mb mb' : Mailbox μ} (h : Progress mb mb') : MailboxStep mb mb'
  | begin (mb : Mailbox μ) (message : Posted μ) :
      MailboxStep mb { mb with posts := mb.posts ++ [⟨message, .push⟩] }

/-! ### The invariant -/

namespace ConsumerPc

/-- Inside `run`, or returned from it before storing idle. -/
def inRun : ConsumerPc μ → Bool
  | .runTop | .loadSuspendedInRun | .userPop | .sysDecrement _ | .userDecrement _ | .storeIdle => true
  | .loadSys | .loadUser _ | .loadSuspended _ | .cas => false

/-- Holding a popped system message whose counter is not yet decremented. -/
def holdsSys : ConsumerPc μ → Bool
  | .sysDecrement _ => true
  | _ => false

/-- Holding a popped user message whose counter is not yet decremented. -/
def holdsUser : ConsumerPc μ → Bool
  | .userDecrement _ => true
  | _ => false

/-- After storing idle, bound to go round again if it finds a system message counted: it has
not loaded `sysMessages` yet, or loaded a positive count. -/
def RechecksSys : ConsumerPc μ → Prop
  | .loadSys | .cas => True
  | .loadUser sys => 0 < sys
  | _ => False

/-- After storing idle, bound to go round again if it finds a user message counted: it has not
loaded `userMessages` yet, or loaded a positive count. -/
def RechecksUser : ConsumerPc μ → Prop
  | .loadSys | .loadUser _ | .cas => True
  | .loadSuspended user => 0 < user
  | _ => False

end ConsumerPc

/-- Between the push and the counter increment. -/
def PostPc.pushed : PostPc → Bool
  | .link _ | .increment => true
  | .push | .schedule => false

@[simp] theorem PostPc.pushed_push : PostPc.push.pushed = false := rfl

@[simp] theorem PostPc.pushed_schedule : PostPc.schedule.pushed = false := rfl

/-- A message for the system queue. -/
def Posted.isSystem : Posted μ → Bool
  | .system _ => true
  | .user _ => false

/-- A system message pushed and not yet counted. -/
def Post.pushedSys (p : Post μ) : Bool :=
  p.message.isSystem && p.pc.pushed

/-- A user message pushed and not yet counted. -/
def Post.pushedUser (p : Post μ) : Bool :=
  !p.message.isSystem && p.pc.pushed

/-- The goroutines inside `run` that the status stands for. -/
def SchedulerStatus.runs : SchedulerStatus → Nat
  | .idle => 0
  | .running => 1

@[simp] theorem SchedulerStatus.runs_idle : SchedulerStatus.idle.runs = 0 := rfl

@[simp] theorem SchedulerStatus.runs_running : SchedulerStatus.running.runs = 1 := rfl

theorem SchedulerStatus.runs_le_one (st : SchedulerStatus) : st.runs ≤ 1 := by
  cases st <;> simp

namespace Mailbox

/-- One goroutine inside `run` while the status is running, none while it is idle. -/
def SingleRun (mb : Mailbox μ) : Prop :=
  mb.consumers.countP ConsumerPc.inRun = mb.schedulerStatus.runs

/-- How far `sysMessages` runs ahead of the system messages it should count: those in the queue
and those held by `run`, less those pushed and not counted yet. -/
def sysSlack (mb : Mailbox μ) : Int :=
  mb.sysMessages + mb.posts.countP Post.pushedSys - mb.systemMailbox.length -
    mb.consumers.countP ConsumerPc.holdsSys

/-- How far `userMessages` runs ahead of the user messages it should count. -/
def userSlack (mb : Mailbox μ) : Int :=
  mb.userMessages + mb.posts.countP Post.pushedUser - mb.userMailbox.length -
    mb.consumers.countP ConsumerPc.holdsUser

/-- Each message in a queue or held by `run` is counted, or its post is about to count it. -/
structure Counted (mb : Mailbox μ) : Prop where
  sys : 0 ≤ mb.sysSlack
  user : 0 ≤ mb.userSlack

/-- Someone is about to schedule, or to recheck the counters after storing idle. -/
def Wakes (mb : Mailbox μ) (rechecks : ConsumerPc μ → Prop) : Prop :=
  (∃ p ∈ mb.posts, p.pc = .schedule) ∨ ∃ c ∈ mb.consumers, rechecks c

/-- While idle, counted work has someone bound to find it. -/
structure Woken (mb : Mailbox μ) : Prop where
  sys : mb.schedulerStatus = .idle → 0 < mb.sysMessages → mb.Wakes ConsumerPc.RechecksSys
  user : mb.schedulerStatus = .idle → mb.suspended = false → 0 < mb.userMessages →
    mb.Wakes ConsumerPc.RechecksUser

/-- The invariant of every reachable mailbox. -/
structure Inv (mb : Mailbox μ) : Prop where
  singleRun : mb.SingleRun
  counted : mb.Counted
  woken : mb.Woken

@[simp] theorem schedule_schedulerStatus (mb : Mailbox μ) : mb.schedule.schedulerStatus = .running := by
  unfold schedule; split <;> simp_all

theorem Woken.of_running {mb : Mailbox μ} (h : mb.schedulerStatus = .running) : mb.Woken :=
  ⟨fun hi => by simp [h] at hi, fun hi => by simp [h] at hi⟩

/-- Wakers of one state that are still there in another. -/
theorem Wakes.mono {mb mb' : Mailbox μ} {r : ConsumerPc μ → Prop} (hw : mb.Wakes r)
    (hp : ∀ p ∈ mb.posts, p.pc = .schedule → p ∈ mb'.posts)
    (hc : ∀ c ∈ mb.consumers, r c → c ∈ mb'.consumers) : mb'.Wakes r := by
  rcases hw with ⟨p, hp', hpc⟩ | ⟨c, hc', hrc⟩
  · exact .inl ⟨p, hp p hp' hpc, hpc⟩
  · exact .inr ⟨c, hc c hc' hrc, hrc⟩

section Posting

variable {mb : Mailbox μ} {pre post : List (Post μ)} {p : Post μ}

theorem singleRun_postStep (hs : mb.SingleRun) : (mb.postStep pre post p).SingleRun := by
  obtain ⟨m, pc⟩ := p
  cases pc with
  | push => cases m <;> exact hs
  | link _ => exact hs
  | increment => cases m <;> exact hs
  | schedule =>
    unfold SingleRun at hs ⊢
    simp only [postStep, schedule]
    cases hst : mb.schedulerStatus with
    | idle => simp_all [ConsumerPc.inRun]
    | running => simpa [hst] using hs

/-- A post's step moves its message from pushed to counted, and changes neither slack. -/
theorem slack_postStep (h : mb.posts = pre ++ p :: post) :
    (mb.postStep pre post p).sysSlack = mb.sysSlack ∧
      (mb.postStep pre post p).userSlack = mb.userSlack := by
  unfold sysSlack userSlack
  rw [h]
  obtain ⟨m, pc⟩ := p
  cases pc with
  | push =>
    -- the message joins its queue, and its post is now to be counted
    cases m <;> simp [postStep, push, afterPush, Mpsc.Slots.swap, Post.pushedSys, Post.pushedUser,
      PostPc.pushed, Posted.isSystem] <;> omega
  | link _ =>
    -- the node stays where it is, and its post is still to count it
    cases m <;> simp [postStep, link, Mpsc.Slots.link, Post.pushedSys, Post.pushedUser,
      PostPc.pushed, Posted.isSystem]
  | increment =>
    cases m <;> simp [postStep, increment, Post.pushedSys, Post.pushedUser, PostPc.pushed,
      Posted.isSystem] <;> omega
  | schedule =>
    -- the post leaves, counting nothing; a goroutine it starts holds nothing
    simp only [postStep, schedule]
    cases mb.schedulerStatus <;>
      simp [Post.pushedSys, Post.pushedUser, ConsumerPc.holdsSys, ConsumerPc.holdsUser]

theorem counted_postStep (h : mb.posts = pre ++ p :: post) (hc : mb.Counted) :
    (mb.postStep pre post p).Counted := by
  obtain ⟨hsys, huser⟩ := slack_postStep h
  exact ⟨hsys ▸ hc.sys, huser ▸ hc.user⟩

/-- A post that is not about to schedule leaves every post that is where it was. -/
theorem scheduling_mem_pick (h : mb.posts = pre ++ p :: post) (hp : p.pc ≠ .schedule)
    (p' : Post μ) : ∀ q ∈ mb.posts, q.pc = .schedule → q ∈ pre ++ p' :: post := by
  intro q hq hqs
  rw [h, mem_pick] at hq
  rcases hq with rfl | hq
  · exact absurd hqs hp
  · exact mem_pick_of_mem p' hq

theorem woken_postStep (h : mb.posts = pre ++ p :: post) (hw : mb.Woken) :
    (mb.postStep pre post p).Woken := by
  obtain ⟨m, pc⟩ := p
  cases pc with
  | push =>
    -- the push counts nothing, and every waker stays
    have hp := scheduling_mem_pick h (by simp) ⟨m, mb.afterPush m⟩
    cases m <;>
      exact ⟨fun hi hpos => (hw.sys hi hpos).mono hp (fun _ hc _ => hc),
        fun hi hsus hpos => (hw.user hi hsus hpos).mono hp (fun _ hc _ => hc)⟩
  | link _ =>
    have hp := scheduling_mem_pick h (by simp) ⟨m, .increment⟩
    exact ⟨fun hi hpos => (hw.sys hi hpos).mono hp (fun _ hc _ => hc),
      fun hi hsus hpos => (hw.user hi hsus hpos).mono hp (fun _ hc _ => hc)⟩
  | increment =>
    -- the counter it increments has this post, now about to schedule, as its waker
    have hp := scheduling_mem_pick h (by simp) ⟨m, .schedule⟩
    have hnew : ∃ q ∈ pre ++ ⟨m, .schedule⟩ :: post, q.pc = .schedule :=
      ⟨⟨m, .schedule⟩, by simp, rfl⟩
    cases m with
    | user u =>
      exact ⟨fun hi hpos => (hw.sys hi hpos).mono hp (fun _ hc _ => hc), fun _ _ _ => .inl hnew⟩
    | system u =>
      exact ⟨fun _ _ => .inl hnew,
        fun hi hsus hpos => (hw.user hi hsus hpos).mono hp (fun _ hc _ => hc)⟩
  | schedule => exact Woken.of_running (by simp [postStep])

end Posting

section Processing

variable {mb : Mailbox μ} {pre post : List (ConsumerPc μ)} {c : ConsumerPc μ}

theorem running_of_inRun (h : mb.consumers = pre ++ c :: post) (hs : mb.SingleRun)
    (hc : c.inRun) : mb.schedulerStatus = .running := by
  unfold SingleRun at hs
  rw [h, countP_pick, if_pos hc] at hs
  cases hst : mb.schedulerStatus
  · simp [hst] at hs
  · rfl

/-- The wakers of a state that are not the goroutine picked are still there after its step. -/
theorem Wakes.pick {mb' : Mailbox μ} {r : ConsumerPc μ → Prop} (hw : mb.Wakes r)
    (h : mb.consumers = pre ++ c :: post) (hc : ¬r c) (hposts : mb'.posts = mb.posts)
    (hcons : ∀ x ∈ pre ++ post, x ∈ mb'.consumers) : mb'.Wakes r := by
  refine hw.mono (fun q hq _ => hposts ▸ hq) ?_
  intro x hx hrx
  rw [h, mem_pick] at hx
  rcases hx with rfl | hx
  · exact absurd hrx hc
  · exact hcons x hx

/-- A goroutine that moves within `run`, or within what follows it, leaves `SingleRun` as it was
when the status does not change. -/
theorem SingleRun.move {mb' : Mailbox μ} {c' : ConsumerPc μ} (h : mb.consumers = pre ++ c :: post)
    (hs : mb.SingleRun) (hc' : mb'.consumers = pre ++ c' :: post) (hin : c'.inRun = c.inRun)
    (hst : mb'.schedulerStatus = mb.schedulerStatus) : mb'.SingleRun := by
  unfold SingleRun at hs ⊢
  rw [h, countP_pick] at hs
  rw [hc', hst, countP_pick, hin]
  exact hs

/-- A goroutine after `run` that returns from `processMessages` leaves `SingleRun` as it was. -/
theorem SingleRun.exit {mb' : Mailbox μ} (h : mb.consumers = pre ++ c :: post) (hs : mb.SingleRun)
    (hc : c.inRun = false) (hc' : mb'.consumers = pre ++ post)
    (hst : mb'.schedulerStatus = mb.schedulerStatus) : mb'.SingleRun := by
  unfold SingleRun at hs ⊢
  rw [h, countP_pick, hc] at hs
  rw [hc', hst]
  simpa using hs

theorem singleRun_consumerStep (h : mb.consumers = pre ++ c :: post) (hs : mb.SingleRun) :
    (mb.consumerStep pre post c).SingleRun := by
  cases c with
  | runTop =>
    simp only [consumerStep]
    cases (Mpsc.Slots.pop mb.systemMailbox).1 <;> exact hs.move h rfl rfl rfl
  | loadSuspendedInRun =>
    simp only [consumerStep]
    split_ifs <;> exact hs.move h rfl rfl rfl
  | userPop =>
    simp only [consumerStep]
    cases mb.userMailbox.head?.bind id <;> exact hs.move h rfl rfl rfl
  | sysDecrement m => cases m <;> exact hs.move h rfl rfl rfl
  | userDecrement m => exact hs.move h rfl rfl rfl
  | storeIdle =>
    -- the only goroutine inside `run` leaves it
    unfold SingleRun at hs ⊢
    have hle := mb.schedulerStatus.runs_le_one
    rw [h] at hs
    simp [consumerStep, List.countP_cons, ConsumerPc.inRun, -List.countP_eq_zero] at hs ⊢
    omega
  | loadSys => exact hs.move h rfl rfl rfl
  | loadUser sys =>
    simp only [consumerStep]
    split_ifs <;> exact hs.move h rfl rfl rfl
  | loadSuspended user =>
    simp only [consumerStep]
    split_ifs
    · exact hs.move h rfl rfl rfl
    · exact hs.exit h rfl rfl rfl
  | cas =>
    simp only [consumerStep]
    cases hst : mb.schedulerStatus with
    | idle =>
      -- a successful compare-and-swap enters `run` while nobody is inside it
      unfold SingleRun at hs ⊢
      rw [h, hst] at hs
      simp [List.countP_cons, ConsumerPc.inRun, -List.countP_eq_zero] at hs ⊢
      omega
    | running => exact hs.exit h rfl rfl hst.symm

/-- A goroutine's step keeps `sysSlack`, except the pop of a nil system message, which `run` takes
for an empty queue: the message leaves the queue and its count is never decremented. -/
theorem sysSlack_consumerStep (h : mb.consumers = pre ++ c :: post) :
    (mb.consumerStep pre post c).sysSlack = mb.sysSlack ∨
      c = .runTop ∧ (mb.systemMailbox.map Mpsc.Slot.val).head? = some none ∧
        (mb.consumerStep pre post c).sysSlack = mb.sysSlack + 1 := by
  unfold sysSlack
  rw [h]
  cases c with
  | runTop =>
    simp only [consumerStep]
    -- empty; first node not linked, nil or not; linked and nil; linked, holding a message
    rcases hq : mb.systemMailbox with _ | ⟨⟨_, _ | m, _ | _⟩, rest⟩
    · left; simp [Mpsc.Slots.pop, ConsumerPc.holdsSys]
    · left; simp [Mpsc.Slots.pop, ConsumerPc.holdsSys]
    · right; simp [Mpsc.Slots.pop, ConsumerPc.holdsSys]; omega
    · left; simp [Mpsc.Slots.pop, ConsumerPc.holdsSys]
    · -- a system message popped is held until its decrement
      left; simp [Mpsc.Slots.pop, List.countP_cons, ConsumerPc.holdsSys]; omega
  | userPop =>
    left; simp only [consumerStep]
    cases mb.userMailbox.head?.bind id <;> simp [ConsumerPc.holdsSys]
  | sysDecrement m =>
    left; cases m <;> simp [consumerStep, List.countP_cons, ConsumerPc.holdsSys] <;> omega
  | loadSuspendedInRun | loadUser _ | loadSuspended _ =>
    left; simp only [consumerStep]
    split_ifs <;> simp [ConsumerPc.holdsSys]
  | cas =>
    left; simp only [consumerStep]
    cases mb.schedulerStatus <;> simp [ConsumerPc.holdsSys]
  | _ => left; simp [consumerStep, ConsumerPc.holdsSys]

/-- A goroutine's step keeps `userSlack`, except the pop of a nil user message. -/
theorem userSlack_consumerStep (h : mb.consumers = pre ++ c :: post) :
    (mb.consumerStep pre post c).userSlack = mb.userSlack ∨
      c = .userPop ∧ mb.userMailbox.head? = some none ∧
        (mb.consumerStep pre post c).userSlack = mb.userSlack + 1 := by
  unfold userSlack
  rw [h]
  cases c with
  | runTop =>
    left; simp only [consumerStep]
    cases (Mpsc.Slots.pop mb.systemMailbox).1 <;> simp [ConsumerPc.holdsUser]
  | userPop =>
    simp only [consumerStep]
    rcases hq : mb.userMailbox with _ | ⟨_ | m, rest⟩
    · left; simp [ConsumerPc.holdsUser]
    · right; simp [ConsumerPc.holdsUser]; omega
    · left; simp [List.countP_cons, ConsumerPc.holdsUser]; omega
  | userDecrement m =>
    left; simp [consumerStep, List.countP_cons, ConsumerPc.holdsUser]; omega
  | sysDecrement m => left; cases m <;> simp [consumerStep, ConsumerPc.holdsUser]
  | loadSuspendedInRun | loadUser _ | loadSuspended _ =>
    left; simp only [consumerStep]
    split_ifs <;> simp [ConsumerPc.holdsUser]
  | cas =>
    left; simp only [consumerStep]
    cases mb.schedulerStatus <;> simp [ConsumerPc.holdsUser]
  | _ => left; simp [consumerStep, ConsumerPc.holdsUser]

theorem counted_consumerStep (h : mb.consumers = pre ++ c :: post) (hc : mb.Counted) :
    (mb.consumerStep pre post c).Counted := by
  constructor
  · have := hc.sys
    rcases sysSlack_consumerStep h with heq | ⟨-, -, heq⟩ <;> omega
  · have := hc.user
    rcases userSlack_consumerStep h with heq | ⟨-, -, heq⟩ <;> omega

theorem woken_consumerStep (h : mb.consumers = pre ++ c :: post) (hs : mb.SingleRun)
    (hw : mb.Woken) : (mb.consumerStep pre post c).Woken := by
  -- a goroutine inside `run` steps while the status is running, and leaves it so
  have hrun : c.inRun → mb.schedulerStatus = .running := running_of_inRun h hs
  cases c with
  | runTop =>
    apply Woken.of_running
    simp only [consumerStep]
    cases (Mpsc.Slots.pop mb.systemMailbox).1 <;> exact hrun rfl
  | loadSuspendedInRun =>
    apply Woken.of_running
    simp only [consumerStep]
    split_ifs <;> exact hrun rfl
  | userPop =>
    apply Woken.of_running
    simp only [consumerStep]
    cases mb.userMailbox.head?.bind id <;> exact hrun rfl
  | sysDecrement m =>
    apply Woken.of_running
    cases m <;> exact hrun rfl
  | userDecrement m => exact Woken.of_running (hrun rfl)
  | storeIdle =>
    -- having stored idle, the goroutine is bound to load both counters
    have hmem : ConsumerPc.loadSys ∈ (mb.consumerStep pre post .storeIdle).consumers := by
      simp [consumerStep]
    exact ⟨fun _ _ => .inr ⟨_, hmem, trivial⟩, fun _ _ _ => .inr ⟨_, hmem, trivial⟩⟩
  | loadSys =>
    have hmem :
        ConsumerPc.loadUser mb.sysMessages ∈ (mb.consumerStep pre post .loadSys).consumers := by
      simp [consumerStep]
    exact ⟨fun _ hpos => .inr ⟨_, hmem, hpos⟩, fun _ _ _ => .inr ⟨_, hmem, trivial⟩⟩
  | loadUser sys =>
    simp only [consumerStep]
    split_ifs with hsys
    · exact ⟨fun _ _ => .inr ⟨.cas, by simp, trivial⟩, fun _ _ _ => .inr ⟨.cas, by simp, trivial⟩⟩
    · -- with no system message loaded, the goroutine was no waker for the system count
      refine ⟨fun hi hpos => (hw.sys hi hpos).pick h hsys rfl (fun x hx => mem_pick_of_mem _ hx),
        fun _ _ hpos => .inr ⟨.loadSuspended mb.userMessages, by simp, hpos⟩⟩
  | loadSuspended user =>
    simp only [consumerStep]
    split_ifs with hcond
    · exact ⟨fun _ _ => .inr ⟨.cas, by simp, trivial⟩, fun _ _ _ => .inr ⟨.cas, by simp, trivial⟩⟩
    · -- the goroutine returns: it was a waker only for a user count it finds suspended or spent
      refine ⟨fun hi hpos => (hw.sys hi hpos).pick h id rfl (fun x hx => hx),
        fun hi hsus hpos => (hw.user hi hsus hpos).pick h (fun hu => hcond ⟨hsus, hu⟩) rfl (fun x hx => hx)⟩
  | cas =>
    apply Woken.of_running
    simp only [consumerStep]
    cases mb.schedulerStatus <;> rfl

end Processing

/-! ### Every reachable mailbox -/

theorem inv_new : (new : Mailbox μ).Inv :=
  ⟨rfl, ⟨by simp [new, sysSlack], by simp [new, userSlack]⟩,
    ⟨fun _ h => by simp [new] at h, fun _ _ h => by simp [new] at h⟩⟩

theorem Inv.progress {mb mb' : Mailbox μ} (hi : mb.Inv) (hstep : Progress mb mb') : mb'.Inv := by
  cases hstep with
  | post pre post p h =>
    exact ⟨singleRun_postStep hi.singleRun, counted_postStep h hi.counted, woken_postStep h hi.woken⟩
  | consume pre post c h =>
    exact ⟨singleRun_consumerStep h hi.singleRun, counted_consumerStep h hi.counted,
      woken_consumerStep h hi.singleRun hi.woken⟩

/-- A post that has not pushed yet counts nothing and wakes nobody. -/
theorem Inv.begin {mb : Mailbox μ} (hi : mb.Inv) (message : Posted μ) :
    ({ mb with posts := mb.posts ++ [⟨message, .push⟩] } : Mailbox μ).Inv := by
  have hp : ∀ q ∈ mb.posts, q.pc = .schedule → q ∈ mb.posts ++ [⟨message, .push⟩] :=
    fun q hq _ => List.mem_append_left _ hq
  refine ⟨hi.singleRun, ⟨?_, ?_⟩, ⟨?_, ?_⟩⟩
  · simpa [sysSlack, Post.pushedSys] using hi.counted.sys
  · simpa [userSlack, Post.pushedUser] using hi.counted.user
  · exact fun hidle hpos => (hi.woken.sys hidle hpos).mono hp (fun _ hc _ => hc)
  · exact fun hidle hsus hpos => (hi.woken.user hidle hsus hpos).mono hp (fun _ hc _ => hc)

theorem inv_of_reachable {mb : Mailbox μ} (h : Reachable (· = new) MailboxStep mb) : mb.Inv := by
  refine reachable_induction (fun s hs => hs ▸ inv_new) (fun s s' hi hstep => ?_) mb h
  cases hstep with
  | progress h => exact hi.progress h
  | begin message => exact hi.begin message

/-- At most one goroutine is inside `run`, and one is exactly when the status is running. -/
theorem single_run {mb : Mailbox μ} (h : Reachable (· = new) MailboxStep mb) :
    mb.consumers.countP ConsumerPc.inRun ≤ 1 ∧
      (mb.consumers.countP ConsumerPc.inRun = 1 ↔ mb.schedulerStatus = .running) := by
  have hs : mb.SingleRun := (inv_of_reachable h).singleRun
  unfold SingleRun at hs
  rw [hs]
  cases mb.schedulerStatus <;> simp

end Mailbox

/-! ### Runs without nil messages -/

/-- A message that is not nil. -/
def Posted.NonNil : Posted μ → Prop
  | .user m => m ≠ none
  | .system m => m ≠ none

namespace Mailbox

/-- No nil message in a post or a queue. -/
structure NilFree (mb : Mailbox μ) : Prop where
  posts : ∀ p ∈ mb.posts, p.message.NonNil
  userMailbox : none ∉ mb.userMailbox
  systemMailbox : none ∉ mb.systemMailbox.map Mpsc.Slot.val

/-- A post keeps its message as it moves on, and pushes it into its queue. -/
theorem NilFree.postStep {mb : Mailbox μ} {pre post : List (Post μ)} {p : Post μ}
    (h : mb.posts = pre ++ p :: post) (hn : mb.NilFree) : (mb.postStep pre post p).NilFree := by
  obtain ⟨hposts, huser, hsys⟩ := hn
  have hp : p.message.NonNil := hposts p (by simp [h])
  -- every post after the step is one from before, or `p` with the same message
  have hmoved : ∀ pc, ∀ q ∈ pre ++ ⟨p.message, pc⟩ :: post, q.message.NonNil := by
    intro pc q hq
    rcases mem_pick.mp hq with rfl | hq
    · exact hp
    · exact hposts q (h ▸ mem_pick_of_mem p hq)
  obtain ⟨m, pc⟩ := p
  cases pc with
  | push =>
    cases m with
    | user u =>
      refine ⟨hmoved .increment, ?_, hsys⟩
      simp only [Mailbox.postStep, push, List.mem_append, List.mem_singleton, not_or]
      exact ⟨huser, Ne.symm hp⟩
    | system u =>
      refine ⟨hmoved (.link mb.sysNodes), huser, ?_⟩
      simp only [Mailbox.postStep, push, Mpsc.Slots.swap, List.map_append, List.map_singleton,
        List.mem_append, List.mem_singleton, not_or]
      exact ⟨hsys, Ne.symm hp⟩
  | link node =>
    refine ⟨hmoved .increment, huser, ?_⟩
    simpa [Mailbox.postStep, link] using hsys
  | increment => cases m <;> exact ⟨hmoved .schedule, huser, hsys⟩
  | schedule =>
    have hrest : ∀ q ∈ pre ++ post, q.message.NonNil :=
      fun q hq => hposts q (h ▸ mem_pick_of_mem _ hq)
    simp only [Mailbox.postStep, schedule]
    cases mb.schedulerStatus
    · exact ⟨hrest, huser, hsys⟩
    · exact ⟨hrest, huser, hsys⟩

/-- A goroutine only takes messages off the queues. -/
theorem NilFree.consumerStep {mb : Mailbox μ} {pre post : List (ConsumerPc μ)} {c : ConsumerPc μ}
    (hn : mb.NilFree) : (mb.consumerStep pre post c).NilFree := by
  obtain ⟨hposts, huser, hsys⟩ := hn
  have huser' : none ∉ mb.userMailbox.tail := fun hm => huser (List.mem_of_mem_tail hm)
  have hsys' : none ∉ (Mpsc.Slots.pop mb.systemMailbox).2.map Mpsc.Slot.val :=
    fun hm => hsys (((Mpsc.Slots.pop_sublist _).map _).subset hm)
  cases c with
  | runTop =>
    simp only [Mailbox.consumerStep]
    cases (Mpsc.Slots.pop mb.systemMailbox).1
    · exact ⟨hposts, huser, hsys'⟩
    · exact ⟨hposts, huser, hsys'⟩
  | userPop =>
    simp only [Mailbox.consumerStep]
    cases mb.userMailbox.head?.bind id
    · exact ⟨hposts, huser', hsys⟩
    · exact ⟨hposts, huser', hsys⟩
  | sysDecrement m => cases m <;> exact ⟨hposts, huser, hsys⟩
  | loadSuspendedInRun | loadUser _ | loadSuspended _ =>
    simp only [Mailbox.consumerStep]
    split_ifs <;> exact ⟨hposts, huser, hsys⟩
  | cas =>
    simp only [Mailbox.consumerStep]
    cases mb.schedulerStatus
    · exact ⟨hposts, huser, hsys⟩
    · exact ⟨hposts, huser, hsys⟩
  | _ => exact ⟨hposts, huser, hsys⟩

/-- The points of the round `processMessages` goes once a nil user message has been popped, with
what it loads there. -/
def SpinPc : ConsumerPc μ → Prop
  | .runTop | .loadSuspendedInRun | .userPop | .storeIdle | .loadSys | .cas => True
  | .loadUser sys => sys = 0
  | .loadSuspended user => user = 1
  | .sysDecrement _ | .userDecrement _ => False

/-- The mailbox after a nil user message was popped: both queues drained, `userMessages` left at
one, and one `processMessages` goroutine at `c`, inside `run` exactly while running. -/
def spinState (c : ConsumerPc μ) : Mailbox μ :=
  ⟨[], [], 1, if c.inRun then .running else .idle, 1, 0, false, [], [c], []⟩

/-- The round: every step of the goroutine leads to the next point of it. -/
theorem spinState_progress {c : ConsumerPc μ} {mb' : Mailbox μ} (hc : SpinPc c)
    (hstep : Progress (spinState c) mb') : ∃ c', SpinPc c' ∧ mb' = spinState c' := by
  cases hstep with
  | post pre post p h => simp [spinState] at h
  | consume pre post c' h =>
    -- the one goroutine is the one picked
    obtain ⟨rfl, rfl, rfl⟩ := pick_eq_singleton h.symm
    cases c' with
    | runTop => exact ⟨.loadSuspendedInRun, trivial, rfl⟩
    | loadSuspendedInRun => exact ⟨.userPop, trivial, rfl⟩
    | userPop => exact ⟨.storeIdle, trivial, rfl⟩
    | storeIdle => exact ⟨.loadSys, trivial, rfl⟩
    | loadSys => exact ⟨.loadUser 0, rfl, rfl⟩
    | loadUser sys =>
      obtain rfl : sys = 0 := hc
      exact ⟨.loadSuspended 1, rfl, by simp [consumerStep, spinState, ConsumerPc.inRun]⟩
    | loadSuspended user =>
      -- the counter the nil message left reads as work: round again
      obtain rfl : user = 1 := hc
      exact ⟨.cas, trivial, by simp [consumerStep, spinState, ConsumerPc.inRun]⟩
    | cas => exact ⟨.runTop, trivial, rfl⟩
    | sysDecrement _ | userDecrement _ => exact hc.elim

theorem SpinPc.holdsUser {c : ConsumerPc μ} (hc : SpinPc c) : c.holdsUser = false := by
  cases c <;> simp_all [SpinPc, ConsumerPc.holdsUser]

/-- A nil user message posted to a new mailbox is popped without `userMessages` being
decremented.  From then on, with no further post, both queues stay empty, no message is held,
yet the counter stays at one; and `processMessages` never returns: its goroutine is always
there, always with a step to take. -/
theorem nil_user_message_spins :
    Reachable (· = new) MailboxStep (spinState .storeIdle : Mailbox μ) ∧
      ∀ mb, Relation.ReflTransGen Progress (spinState .storeIdle : Mailbox μ) mb →
        mb.posts = [] ∧ mb.userMailbox = [] ∧ mb.systemMailbox = [] ∧
          (∀ c ∈ mb.consumers, c.holdsUser = false) ∧ mb.userMessages = 1 ∧
          mb.consumers.length = 1 ∧ ∃ mb', Progress mb mb' := by
  refine ⟨⟨new, rfl, ?_⟩, fun mb hrun => ?_⟩
  · -- `PostUserMessage(nil)`: push, increment, schedule; then `run` finds no system message,
    -- pops the nil user message and returns
    let posted : Mailbox μ := { new with posts := [⟨.user none, .push⟩] }
    exact .tail (.tail (.tail (.tail (.tail (.tail (.single (.begin new (.user none)))
      (.progress (.post posted [] [] _ rfl))) (.progress (.post _ [] [] _ rfl)))
      (.progress (.post _ [] [] _ rfl))) (.progress (.consume _ [] [] .runTop rfl)))
      (.progress (.consume _ [] [] .loadSuspendedInRun rfl)))
      (.progress (.consume _ [] [] .userPop rfl))
  · have hspin : ∃ c, SpinPc c ∧ mb = spinState c := by
      induction hrun with
      | refl => exact ⟨.storeIdle, trivial, rfl⟩
      | tail _ hstep ih =>
        obtain ⟨c, hc, rfl⟩ := ih
        exact spinState_progress hc hstep
    obtain ⟨c, hc, rfl⟩ := hspin
    refine ⟨rfl, rfl, rfl, ?_, rfl, rfl, _, .consume _ [] [] c rfl⟩
    simpa [spinState] using hc.holdsUser

end Mailbox

end ProtoActor.Actor
