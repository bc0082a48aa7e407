import ProtoActor.Actor.Mailbox

/-!
# The order in which `run` hands messages on

`actor/mailbox.go`, over the mailbox of `Mailbox.lean`.  `Traced` keeps beside the mailbox what a
reader of its history would write down: every push onto either queue, in push order (for the
system queue, the order of the swaps); every message `run` hands on, in order, that is each
system message it processes (`SuspendMailbox` and `ResumeMailbox`, which only set `suspended`,
included) and each user message it invokes; and, for each system message that `Pop` can reach,
the number of user messages `run` had invoked when it became reachable.  The mailbox itself
moves as in `Mailbox.lean`: a traced step is a step of the mailbox, with the record beside it.

Over every reachable traced state (`orderInv_of_reachable`):

* what `run` handed on, `SuspendMailbox` and `ResumeMailbox` left out, is what the mailbox handed
  to the invoker (`invoked_of_reachable`);
* system messages are handled in the order they were pushed, and so are user messages, whatever
  the interleaving of the posts and of `processMessages`; for the posts of one goroutine, push
  order is post order;
* no user message is invoked after a `SuspendMailbox` unless a `ResumeMailbox` was handled in
  between (`resumed_before_user`).

`run` pops the system queue, finds nothing and only then pops the user queue, so a system message
pushed in between waits while one user message is invoked, even one that the same goroutine
posted after it (`user_message_overtakes_stop`).  A system message whose post has ended can wait
much longer: while another post is between its swap and its link, ahead of it in the queue,
`Pop` cannot reach it, and any number of user messages are invoked.  Once `Pop` can reach it,
in runs without nil messages, at most one user message is invoked while it stays queued
(`overtakeInv_of_reachable`).
-/

namespace ProtoActor.Actor

open ProtoActor.Transition ProtoActor.Collections

variable {μ : Type}

/-- What `run` hands on: a system message it processes, or a user message it invokes. -/
inductive Handled (μ : Type)
  | system (message : SystemMessage μ)
  | user (message : μ)
  deriving DecidableEq, Repr

namespace Handled

/-- The system message handed on, if it is one. -/
def systemOf : Handled μ → Option (SystemMessage μ)
  | system m => some m
  | user _ => none

/-- The user message handed on, if it is one. -/
def userOf : Handled μ → Option μ
  | system _ => none
  | user m => some m

/-- The `suspended` flag as a handled message leaves it. -/
def suspendStep (suspended : Bool) : Handled μ → Bool
  | system .suspendMailbox => true
  | system .resumeMailbox => false
  | _ => suspended

end Handled

/-- Whether the last `SuspendMailbox` or `ResumeMailbox` handled is a `SuspendMailbox`. -/
def suspendedAfter (handled : List (Handled μ)) : Bool :=
  handled.foldl Handled.suspendStep false

namespace Posted

/-- The message pushed onto the system queue, if it goes there. -/
def systemOf : Posted μ → Option (Option (SystemMessage μ))
  | system m => some m
  | user _ => none

/-- The message pushed onto the user queue, if it goes there. -/
def userOf : Posted μ → Option (Option μ)
  | user m => some m
  | system _ => none

end Posted

namespace ConsumerPc

/-- The system message held between its pop and its decrement. -/
def heldSys : ConsumerPc μ → Option (SystemMessage μ)
  | sysDecrement m => some m
  | _ => none

/-- The user message held between its pop and its invocation. -/
def heldUser : ConsumerPc μ → Option μ
  | userDecrement m => some m
  | _ => none

/-- What the goroutine's next step hands on. -/
def handedOn : ConsumerPc μ → List (Handled μ)
  | sysDecrement m => [.system m]
  | userDecrement m => [.user m]
  | _ => []

/-- Past a system pop that found nothing, up to the invocation of the user message. -/
def pastSysPop : ConsumerPc μ → Bool
  | loadSuspendedInRun | userPop | userDecrement _ => true
  | _ => false

/-- At the user pop or holding its message: it has read `suspended` as false. -/
def readsUser : ConsumerPc μ → Bool
  | userPop | userDecrement _ => true
  | _ => false

/-- A goroutine outside `run` holds nothing, and is neither at the user pop nor past a system
pop. -/
theorem inert_of_not_inRun {c : ConsumerPc μ} (h : c.inRun = false) :
    c.heldSys = none ∧ c.heldUser = none ∧ c.readsUser = false ∧ c.pastSysPop = false := by
  cases c <;> simp_all [heldSys, heldUser, readsUser, pastSysPop, inRun]

end ConsumerPc

/-- The message a post's step pushes: its own, if the step is the push. -/
def Post.pushes (p : Post μ) : List (Posted μ) :=
  match p.pc with
  | .push => [p.message]
  | _ => []

/-- A mailbox with its history: every push, in order; what `run` handed on, in order; and, for
each node of the system queue that `Pop` can reach, in order, the number of user messages invoked
when it became reachable. -/
structure Traced (μ : Type) where
  mb : Mailbox μ
  pushed : List (Posted μ)
  handled : List (Handled μ)
  stamps : List ℕ

namespace Traced

/-- A new mailbox, with no history. -/
def init : Traced μ :=
  ⟨Mailbox.new, [], [], []⟩

/-- The number of user messages `run` has invoked. -/
def usersHandled (tr : Traced μ) : ℕ :=
  (tr.handled.filterMap Handled.userOf).length

/-- A post's step, with its push recorded; the nodes its link lets `Pop` reach are stamped. -/
def postStep (tr : Traced μ) (pre post : List (Post μ)) (p : Post μ) : Traced μ :=
  { mb := tr.mb.postStep pre post p
    pushed := tr.pushed ++ p.pushes
    handled := tr.handled
    stamps := tr.stamps ++ List.replicate
      (Mpsc.Slots.visible (tr.mb.postStep pre post p).systemMailbox -
        Mpsc.Slots.visible tr.mb.systemMailbox) tr.usersHandled }

/-- A goroutine's step, with what it hands on recorded; the system pop takes the first stamp. -/
def consumerStep (tr : Traced μ) (pre post : List (ConsumerPc μ)) (c : ConsumerPc μ) :
    Traced μ :=
  { mb := tr.mb.consumerStep pre post c
    pushed := tr.pushed
    handled := tr.handled ++ c.handedOn
    stamps :=
      match c with
      | .runTop => tr.stamps.tail
      | _ => tr.stamps }

/-- A producer starting a post. -/
def begin (tr : Traced μ) (message : Posted μ) : Traced μ :=
  { tr with mb := { tr.mb with posts := tr.mb.posts ++ [⟨message, .push⟩] } }

@[simp] theorem postStep_mb (tr : Traced μ) (pre post : List (Post μ)) (p : Post μ) :
    (tr.postStep pre post p).mb = tr.mb.postStep pre post p :=
  rfl

@[simp] theorem postStep_pushed (tr : Traced μ) (pre post : List (Post μ)) (p : Post μ) :
    (tr.postStep pre post p).pushed = tr.pushed ++ p.pushes :=
  rfl

@[simp] theorem postStep_handled (tr : Traced μ) (pre post : List (Post μ)) (p : Post μ) :
    (tr.postStep pre post p).handled = tr.handled :=
  rfl

variable (tr : Traced μ) (pre post : List (ConsumerPc μ)) (c : ConsumerPc μ)

@[simp] theorem consumerStep_mb : (tr.consumerStep pre post c).mb = tr.mb.consumerStep pre post c :=
  rfl

@[simp] theorem consumerStep_pushed : (tr.consumerStep pre post c).pushed = tr.pushed :=
  rfl

@[simp] theorem consumerStep_handled :
    (tr.consumerStep pre post c).handled = tr.handled ++ c.handedOn :=
  rfl

end Traced

section Bridge

variable {ok : Posted μ → Prop} {tr tr' : Traced μ}

end Bridge

/-! ### What each step does to the queues and the goroutines -/

section Pool

variable {α β : Type} {pre post : List α} {c c' : α}

/-- A goroutine that holds nothing, moved on to one that holds nothing or out of the pool, leaves
what the pool holds. -/
theorem filterMap_pick_of_none (f : α → Option β) {o : Option α} (hc : f c = none)
    (ho : ∀ x ∈ o, f x = none) :
    (pre ++ (o.toList ++ post)).filterMap f = (pre ++ c :: post).filterMap f := by
  cases o with
  | none => simp [List.filterMap_append, hc]
  | some x => simp [List.filterMap_append, hc, ho x rfl]

/-- When no other goroutine holds anything, what the pool holds is what the one picked holds. -/
theorem filterMap_pick_of_others (f : α → Option β) (hothers : ∀ x ∈ pre ++ post, f x = none) :
    (pre ++ c :: post).filterMap f = (f c).toList := by
  have hpre : pre.filterMap f = [] :=
    List.filterMap_eq_nil_iff.mpr fun x hx => hothers x (List.mem_append_left _ hx)
  have hpost : post.filterMap f = [] :=
    List.filterMap_eq_nil_iff.mpr fun x hx => hothers x (List.mem_append_right _ hx)
  cases hc : f c <;> simp [List.filterMap_append, hc, hpre, hpost]

/-- When no other goroutine holds anything, a step of the picked goroutine keeps the ledger of
what was handed on, what is held and what is queued, if it keeps it for that goroutine. -/
theorem ledger_pick_of_others (f : α → Option β) {pool : List α}
    {done done' queued queued' all : List β} (h : pool = pre ++ c :: post)
    (hothers : ∀ x ∈ pre ++ post, f x = none) (hbefore : done ++ pool.filterMap f ++ queued = all)
    (hstep : done' ++ (f c').toList ++ queued' = done ++ (f c).toList ++ queued) :
    done' ++ (pre ++ c' :: post).filterMap f ++ queued' = all := by
  rw [h, filterMap_pick_of_others f hothers] at hbefore
  rw [filterMap_pick_of_others f hothers, hstep]
  exact hbefore

/-- A property that none of the other goroutines has holds of a goroutine after the step only if
it is the one picked. -/
theorem forall_pick_of_others {p : α → Bool} {Q : Prop} (hothers : ∀ x ∈ pre ++ post, p x = false)
    (hc : p c = true → Q) : ∀ x ∈ pre ++ c :: post, p x = true → Q := by
  intro x hx hp
  rcases mem_pick.mp hx with rfl | hx
  · exact hc hp
  · rw [hothers x hx] at hp
    cases hp

/-- A goroutine after a step is the one the picked goroutine became, or one of the others. -/
theorem mem_pick_of_mem_moved {o : Option α} {x : α} (hx : x ∈ pre ++ (o.toList ++ post)) :
    x ∈ o ∨ x ∈ pre ++ c :: post := by
  simp only [List.mem_append, Option.mem_toList] at hx
  rcases hx with hx | hx | hx
  · exact .inr (mem_pick_of_mem c (List.mem_append_left post hx))
  · exact .inl hx
  · exact .inr (mem_pick_of_mem c (List.mem_append_right pre hx))

/-- A queue of possibly nil items: its first item, if it is not nil, then the rest. -/
theorem filterMap_id_eq_head (q : List (Option β)) :
    q.filterMap id = (q.head?.bind id).toList ++ q.tail.filterMap id := by
  rcases q with _ | ⟨x, q⟩
  · rfl
  · cases x <;> rfl

end Pool

namespace Mailbox

variable {mb : Mailbox μ} {pre post : List (ConsumerPc μ)} {c : ConsumerPc μ}

/-- The other goroutines of a mailbox with one goroutine inside `run`, the one picked, are all
outside `run`. -/
theorem SingleRun.others (hs : mb.SingleRun) (h : mb.consumers = pre ++ c :: post)
    (hc : c.inRun = true) : ∀ x ∈ pre ++ post, x.inRun = false := by
  unfold SingleRun at hs
  rw [h, countP_pick, if_pos hc] at hs
  have hle := mb.schedulerStatus.runs_le_one
  have hzero : (pre ++ post).countP ConsumerPc.inRun = 0 := by omega
  intro x hx
  simpa using List.countP_eq_zero.mp hzero x hx

/-- `schedule` leaves everything but the status, or also starts a goroutine at the top of
`run`. -/
theorem schedule_eq_or (mb : Mailbox μ) :
    mb.schedule = mb ∨
      mb.schedule = { mb with schedulerStatus := .running, consumers := mb.consumers ++ [.runTop] } := by
  unfold schedule
  split
  · exact .inr rfl
  · exact .inl rfl

/-- The system pop: the goroutine holds what `Pop` returns, or, if it returns nil, goes on to load
`suspended`. -/
theorem consumerStep_runTop :
    ∃ c', (mb.consumerStep pre post .runTop).consumers = pre ++ c' :: post ∧
      c'.heldSys = (Mpsc.Slots.pop mb.systemMailbox).1 ∧ c'.heldUser = none ∧
      c'.readsUser = false ∧ c'.pastSysPop = (Mpsc.Slots.pop mb.systemMailbox).1.isNone ∧
      (mb.consumerStep pre post .runTop).systemMailbox = (Mpsc.Slots.pop mb.systemMailbox).2 ∧
      (mb.consumerStep pre post .runTop).userMailbox = mb.userMailbox ∧
      (mb.consumerStep pre post .runTop).suspended = mb.suspended := by
  simp only [consumerStep]
  split
  · rename_i m hm
    exact ⟨.sysDecrement m, rfl, hm.symm, rfl, rfl, by rw [hm]; rfl, rfl, rfl, rfl⟩
  · rename_i hm
    exact ⟨.loadSuspendedInRun, rfl, hm.symm, rfl, rfl, by rw [hm]; rfl, rfl, rfl, rfl⟩

/-- The user pop: the goroutine holds the first user message, or, if the queue is empty or its
first message is nil, returns from `run`. -/
theorem consumerStep_userPop :
    ∃ c', (mb.consumerStep pre post .userPop).consumers = pre ++ c' :: post ∧
      c'.heldUser = mb.userMailbox.head?.bind id ∧ c'.heldSys = none ∧
      (c'.readsUser = true ∨ c'.pastSysPop = true → c'.heldUser.isSome) ∧
      (mb.consumerStep pre post .userPop).systemMailbox = mb.systemMailbox ∧
      (mb.consumerStep pre post .userPop).userMailbox = mb.userMailbox.tail ∧
      (mb.consumerStep pre post .userPop).suspended = mb.suspended := by
  simp only [consumerStep]
  split
  · rename_i m hm
    exact ⟨.userDecrement m, rfl, hm.symm, rfl, by simp [ConsumerPc.heldUser], rfl, rfl, rfl⟩
  · rename_i hm
    exact ⟨.storeIdle, rfl, hm.symm, rfl, by simp [ConsumerPc.readsUser, ConsumerPc.pastSysPop],
      rfl, rfl, rfl⟩

/-- Handing a system message on: `SuspendMailbox` and `ResumeMailbox` set the flag, and the
goroutine goes back to the top of `run`. -/
theorem consumerStep_sysDecrement (m : SystemMessage μ) :
    (mb.consumerStep pre post (.sysDecrement m)).consumers = pre ++ .runTop :: post ∧
      (mb.consumerStep pre post (.sysDecrement m)).systemMailbox = mb.systemMailbox ∧
      (mb.consumerStep pre post (.sysDecrement m)).userMailbox = mb.userMailbox ∧
      (mb.consumerStep pre post (.sysDecrement m)).suspended =
        Handled.suspendStep mb.suspended (.system m) := by
  cases m <;> exact ⟨rfl, rfl, rfl, rfl⟩

/-- Invoking a user message, and back to the top of `run`. -/
theorem consumerStep_userDecrement (m : μ) :
    (mb.consumerStep pre post (.userDecrement m)).consumers = pre ++ .runTop :: post ∧
      (mb.consumerStep pre post (.userDecrement m)).systemMailbox = mb.systemMailbox ∧
      (mb.consumerStep pre post (.userDecrement m)).userMailbox = mb.userMailbox ∧
      (mb.consumerStep pre post (.userDecrement m)).suspended = mb.suspended :=
  ⟨rfl, rfl, rfl, rfl⟩

@[simp] theorem schedule_systemMailbox (mb : Mailbox μ) :
    mb.schedule.systemMailbox = mb.systemMailbox := by
  rcases schedule_eq_or mb with h | h <;> rw [h]

@[simp] theorem schedule_userMailbox (mb : Mailbox μ) : mb.schedule.userMailbox = mb.userMailbox := by
  rcases schedule_eq_or mb with h | h <;> rw [h]

@[simp] theorem schedule_suspended (mb : Mailbox μ) : mb.schedule.suspended = mb.suspended := by
  rcases schedule_eq_or mb with h | h <;> rw [h]

@[simp] theorem schedule_invoked (mb : Mailbox μ) : mb.schedule.invoked = mb.invoked := by
  rcases schedule_eq_or mb with h | h <;> rw [h]

section PostStep

variable (mb : Mailbox μ) (pre post : List (Post μ)) (p : Post μ)

theorem suspended_postStep : (mb.postStep pre post p).suspended = mb.suspended := by
  obtain ⟨m, pc⟩ := p
  cases pc with
  | push => cases m <;> rfl
  | link _ => rfl
  | increment => cases m <;> rfl
  | schedule => simp [postStep]

/-- The system queue after a post's step holds the message it pushed, if the step is the push,
after what it held; the link moves no item. -/
theorem filterMap_systemMailbox_postStep :
    (mb.postStep pre post p).systemMailbox.filterMap Mpsc.Slot.val =
      mb.systemMailbox.filterMap Mpsc.Slot.val ++ (p.pushes.filterMap Posted.systemOf).filterMap id := by
  obtain ⟨m, pc⟩ := p
  cases pc with
  | push =>
    cases m with
    | user _ => simp [postStep, push, Post.pushes, Posted.systemOf]
    | system x => cases x <;> simp [postStep, push, Post.pushes, Posted.systemOf, Mpsc.Slots.swap]
  | link _ => simp [postStep, link, Post.pushes, Mpsc.Slots.filterMap_val_link]
  | increment => cases m <;> simp [postStep, increment, Post.pushes]
  | schedule => simp [postStep, Post.pushes]

theorem filterMap_userMailbox_postStep :
    (mb.postStep pre post p).userMailbox.filterMap id =
      mb.userMailbox.filterMap id ++ (p.pushes.filterMap Posted.userOf).filterMap id := by
  obtain ⟨m, pc⟩ := p
  cases pc with
  | push => cases m <;> simp [postStep, push, Post.pushes, Posted.userOf]
  | link _ => simp [postStep, link, Post.pushes]
  | increment => cases m <;> simp [postStep, increment, Post.pushes]
  | schedule => simp [postStep, Post.pushes]

/-- `Pop` reaches at least as far after a post's step: a swap adds a node it cannot reach yet,
and a link can only let it reach further. -/
theorem visible_le_postStep :
    Mpsc.Slots.visible mb.systemMailbox ≤ Mpsc.Slots.visible (mb.postStep pre post p).systemMailbox := by
  obtain ⟨m, pc⟩ := p
  cases pc with
  | push =>
    cases m with
    | user _ => exact le_refl _
    | system _ => exact (Mpsc.Slots.visible_swap _ _ _).ge
  | link node => exact Mpsc.Slots.visible_le_link _ node
  | increment => cases m <;> exact le_refl _
  | schedule => simp [postStep]

/-- A post's step adds a goroutine at the top of `run`, if any. -/
theorem mem_consumers_postStep {x : ConsumerPc μ} (hx : x ∈ (mb.postStep pre post p).consumers) :
    x ∈ mb.consumers ∨ x = .runTop := by
  obtain ⟨m, pc⟩ := p
  cases pc with
  | push => cases m <;> exact .inl hx
  | link _ => exact .inl hx
  | increment => cases m <;> exact .inl hx
  | schedule =>
    change x ∈ ({ mb with posts := pre ++ post } : Mailbox μ).schedule.consumers at hx
    rcases schedule_eq_or { mb with posts := pre ++ post } with h | h <;> rw [h] at hx
    · exact .inl hx
    · rcases List.mem_append.mp hx with hx | hx
      · exact .inl hx
      · exact .inr (List.mem_singleton.mp hx)

/-- A goroutine a post's step starts holds nothing. -/
theorem filterMap_consumers_postStep {β : Type} (f : ConsumerPc μ → Option β) (hf : f .runTop = none) :
    (mb.postStep pre post p).consumers.filterMap f = mb.consumers.filterMap f := by
  obtain ⟨m, pc⟩ := p
  cases pc with
  | push => cases m <;> rfl
  | link _ => rfl
  | increment => cases m <;> rfl
  | schedule =>
    change (({ mb with posts := pre ++ post } : Mailbox μ).schedule.consumers).filterMap f = _
    rcases schedule_eq_or { mb with posts := pre ++ post } with h | h <;> rw [h]
    simp [List.filterMap_append, hf]

end PostStep

end Mailbox

namespace ConsumerPc

/-- The steps that pop a queue or hand a message on. -/
def touches : ConsumerPc μ → Bool
  | runTop | userPop | sysDecrement _ | userDecrement _ => true
  | _ => false

end ConsumerPc

namespace Mailbox

variable {mb : Mailbox μ} {pre post : List (ConsumerPc μ)} {c : ConsumerPc μ}

/-- Every other step moves the goroutine on, or out of `processMessages`, and changes neither
queue nor `suspended`; where it goes it holds nothing, it reaches the user pop only having read
`suspended` as false, and it is past a system pop only if it was. -/
theorem consumerStep_of_not_touches (hc : c.touches = false) :
    ∃ o : Option (ConsumerPc μ),
      (mb.consumerStep pre post c).consumers = pre ++ (o.toList ++ post) ∧
      (mb.consumerStep pre post c).systemMailbox = mb.systemMailbox ∧
      (mb.consumerStep pre post c).userMailbox = mb.userMailbox ∧
      (mb.consumerStep pre post c).suspended = mb.suspended ∧
      ∀ x ∈ o, x.heldSys = none ∧ x.heldUser = none ∧ (x.readsUser = true → mb.suspended = false) ∧
        (x.pastSysPop = true → c.pastSysPop = true) := by
  cases c with
  | runTop | userPop | sysDecrement _ | userDecrement _ => cases hc
  | loadSuspendedInRun =>
    simp only [consumerStep]
    split
    · exact ⟨some .storeIdle, rfl, rfl, rfl, rfl, by simp [ConsumerPc.heldSys,
        ConsumerPc.heldUser, ConsumerPc.readsUser, ConsumerPc.pastSysPop]⟩
    · rename_i hsus
      exact ⟨some .userPop, rfl, rfl, rfl, rfl, by simp [ConsumerPc.heldSys, ConsumerPc.heldUser,
        ConsumerPc.pastSysPop, hsus]⟩
  | storeIdle => exact ⟨some .loadSys, rfl, rfl, rfl, rfl, by simp [ConsumerPc.heldSys,
      ConsumerPc.heldUser, ConsumerPc.readsUser, ConsumerPc.pastSysPop]⟩
  | loadSys => exact ⟨some (.loadUser mb.sysMessages), rfl, rfl, rfl, rfl, by
      simp [ConsumerPc.heldSys, ConsumerPc.heldUser, ConsumerPc.readsUser, ConsumerPc.pastSysPop]⟩
  | loadUser sys =>
    simp only [consumerStep]
    split
    · exact ⟨some .cas, rfl, rfl, rfl, rfl, by simp [ConsumerPc.heldSys, ConsumerPc.heldUser,
        ConsumerPc.readsUser, ConsumerPc.pastSysPop]⟩
    · exact ⟨some (.loadSuspended mb.userMessages), rfl, rfl, rfl, rfl, by simp [ConsumerPc.heldSys,
        ConsumerPc.heldUser, ConsumerPc.readsUser, ConsumerPc.pastSysPop]⟩
  | loadSuspended user =>
    simp only [consumerStep]
    split
    · exact ⟨some .cas, rfl, rfl, rfl, rfl, by simp [ConsumerPc.heldSys, ConsumerPc.heldUser,
        ConsumerPc.readsUser, ConsumerPc.pastSysPop]⟩
    · exact ⟨none, rfl, rfl, rfl, rfl, by simp⟩
  | cas =>
    simp only [consumerStep]
    split
    · exact ⟨some .runTop, rfl, rfl, rfl, rfl, by simp [ConsumerPc.heldSys, ConsumerPc.heldUser,
        ConsumerPc.readsUser, ConsumerPc.pastSysPop]⟩
    · exact ⟨none, rfl, rfl, rfl, rfl, by simp⟩

end Mailbox

namespace ConsumerPc

variable {c : ConsumerPc μ}

theorem handedOn_of_not_touches (hc : c.touches = false) : c.handedOn = [] := by
  cases c <;> simp_all [touches, handedOn]

theorem heldSys_of_not_touches (hc : c.touches = false) : c.heldSys = none := by
  cases c <;> simp_all [touches, heldSys]

theorem heldUser_of_not_touches (hc : c.touches = false) : c.heldUser = none := by
  cases c <;> simp_all [touches, heldUser]

end ConsumerPc

theorem Traced.stamps_consumerStep_of_not_touches {tr : Traced μ} {pre post : List (ConsumerPc μ)}
    {c : ConsumerPc μ} (hc : c.touches = false) : (tr.consumerStep pre post c).stamps = tr.stamps := by
  cases c <;> simp_all [ConsumerPc.touches, Traced.consumerStep]

theorem eq_or_of_append_singleton {α : Type} {l pre post : List α} {x y : α}
    (h : l ++ [x] = pre ++ y :: post) :
    (pre = l ∧ y = x ∧ post = []) ∨ ∃ post', post = post' ++ [x] ∧ l = pre ++ y :: post' := by
  rcases List.eq_nil_or_concat post with rfl | ⟨post', z, rfl⟩
  · obtain ⟨hl, hx⟩ := List.append_inj' h rfl
    exact .inl ⟨hl.symm, (List.singleton_inj.mp hx).symm, rfl⟩
  · rw [List.concat_eq_append, ← List.cons_append, ← List.append_assoc] at h
    obtain ⟨hl, hx⟩ := List.append_inj' h rfl
    obtain rfl := List.singleton_inj.mp hx
    exact .inr ⟨post', List.concat_eq_append .., hl⟩

/-! ### Order -/

/-- What every reachable traced state satisfies.  For each queue, the messages `run` handed on,
then the one it holds, then those queued, nil ones left out, are those pushed, in order; there is
a stamp for each node `Pop` can reach; `suspended` is what the handled messages left it; a
goroutine at the user pop has read it as false; and no user message was handed on while it was
set. -/
structure OrderInv (tr : Traced μ) : Prop where
  sys : tr.handled.filterMap Handled.systemOf ++ tr.mb.consumers.filterMap ConsumerPc.heldSys ++
      tr.mb.systemMailbox.filterMap Mpsc.Slot.val = (tr.pushed.filterMap Posted.systemOf).filterMap id
  user : tr.handled.filterMap Handled.userOf ++ tr.mb.consumers.filterMap ConsumerPc.heldUser ++
      tr.mb.userMailbox.filterMap id = (tr.pushed.filterMap Posted.userOf).filterMap id
  stamps : tr.stamps.length = Mpsc.Slots.visible tr.mb.systemMailbox
  suspended : tr.mb.suspended = suspendedAfter tr.handled
  readsUser : ∀ c ∈ tr.mb.consumers, c.readsUser = true → tr.mb.suspended = false
  userLog : ∀ pre m post, tr.handled = pre ++ .user m :: post → suspendedAfter pre = false

section OrderSteps

variable {tr : Traced μ}

theorem suspendedAfter_append_singleton (handled : List (Handled μ)) (h : Handled μ) :
    suspendedAfter (handled ++ [h]) = Handled.suspendStep (suspendedAfter handled) h := by
  rw [suspendedAfter, List.foldl_append, List.foldl_cons, List.foldl_nil, suspendedAfter]

/-- A log that grows by a system message keeps every user message where it was. -/
theorem userLog_append_system (ho : OrderInv tr) (m : SystemMessage μ) :
    ∀ pre u post, tr.handled ++ [.system m] = pre ++ .user u :: post → suspendedAfter pre = false := by
  intro pre u post h
  rcases eq_or_of_append_singleton h with ⟨-, hu, -⟩ | ⟨post', -, hl⟩
  · cases hu
  · exact ho.userLog pre u post' hl

theorem OrderInv.postStep (ho : OrderInv tr) (pre post : List (Post μ)) (p : Post μ) :
    OrderInv (tr.postStep pre post p) := by
  have hle := Mailbox.visible_le_postStep tr.mb pre post p
  refine ⟨?_, ?_, ?_, ?_, fun c hc hreads => ?_, ho.userLog⟩
  · -- the message pushed, if any, joins the end of both sides
    rw [Traced.postStep_handled, Traced.postStep_mb, Traced.postStep_pushed,
      Mailbox.filterMap_consumers_postStep _ _ _ _ _ rfl, Mailbox.filterMap_systemMailbox_postStep,
      List.filterMap_append, List.filterMap_append, ← ho.sys]
    simp only [List.append_assoc]
  · rw [Traced.postStep_handled, Traced.postStep_mb, Traced.postStep_pushed,
      Mailbox.filterMap_consumers_postStep _ _ _ _ _ rfl, Mailbox.filterMap_userMailbox_postStep,
      List.filterMap_append, List.filterMap_append, ← ho.user]
    simp only [List.append_assoc]
  · -- each node the step lets `Pop` reach gets a stamp
    rw [Traced.postStep_mb]
    show (tr.stamps ++ List.replicate _ _).length = _
    rw [List.length_append, List.length_replicate, ho.stamps]
    omega
  · rw [Traced.postStep_mb, Mailbox.suspended_postStep, Traced.postStep_handled]
    exact ho.suspended
  · -- a goroutine the step starts is at the top of `run`
    rw [Traced.postStep_mb, Mailbox.suspended_postStep]
    rcases Mailbox.mem_consumers_postStep _ _ _ _ hc with hc | rfl
    · exact ho.readsUser c hc hreads
    · cases hreads

theorem OrderInv.begin (ho : OrderInv tr) (message : Posted μ) : OrderInv (tr.begin message) :=
  ⟨ho.sys, ho.user, ho.stamps, ho.suspended, ho.readsUser, ho.userLog⟩

/-- A step that touches no queue: the goroutine moves on, holding nothing. -/
theorem OrderInv.consumerStep_of_not_touches (ho : OrderInv tr) {pre post : List (ConsumerPc μ)}
    {c : ConsumerPc μ} (h : tr.mb.consumers = pre ++ c :: post) (hc : c.touches = false) :
    OrderInv (tr.consumerStep pre post c) := by
  obtain ⟨o, hcons, hsys, huser, hsus, hnext⟩ :=
    @Mailbox.consumerStep_of_not_touches μ tr.mb pre post c hc
  have hhanded : tr.handled ++ c.handedOn = tr.handled := by
    rw [ConsumerPc.handedOn_of_not_touches hc, List.append_nil]
  refine ⟨?_, ?_, ?_, ?_, ?_, ?_⟩
  · rw [Traced.consumerStep_handled, Traced.consumerStep_mb, Traced.consumerStep_pushed, hhanded,
      hcons, hsys, filterMap_pick_of_none _ (ConsumerPc.heldSys_of_not_touches hc)
      fun x hx => (hnext x hx).1, ← h]
    exact ho.sys
  · rw [Traced.consumerStep_handled, Traced.consumerStep_mb, Traced.consumerStep_pushed, hhanded,
      hcons, huser, filterMap_pick_of_none _ (ConsumerPc.heldUser_of_not_touches hc)
      fun x hx => (hnext x hx).2.1, ← h]
    exact ho.user
  · rw [Traced.stamps_consumerStep_of_not_touches hc, Traced.consumerStep_mb, hsys]
    exact ho.stamps
  · show _ = suspendedAfter (tr.handled ++ c.handedOn)
    rw [hhanded, ← ho.suspended]
    exact hsus
  · -- where the goroutine goes, it has read `suspended` as false if it reads user messages
    intro x hx hreads
    show (tr.mb.consumerStep pre post c).suspended = false
    rw [hsus]
    rw [Traced.consumerStep_mb, hcons, List.mem_append, List.mem_append] at hx
    rcases hx with hx | hx | hx
    · exact ho.readsUser x (h ▸ List.mem_append_left _ hx) hreads
    · exact (hnext x (Option.mem_toList.mp hx)).2.2.1 hreads
    · exact ho.readsUser x (h ▸ List.mem_append_right _ (List.mem_cons_of_mem c hx)) hreads
  · show ∀ pre' u post', tr.handled ++ c.handedOn = _ → _
    rw [hhanded]
    exact ho.userLog

/-- The other goroutines of a mailbox with one goroutine inside `run`, the one picked, are
inert. -/
theorem others_inert (hs : tr.mb.SingleRun) {pre post : List (ConsumerPc μ)} {c : ConsumerPc μ}
    (h : tr.mb.consumers = pre ++ c :: post) (hc : c.inRun = true) :
    ∀ x ∈ pre ++ post,
      x.heldSys = none ∧ x.heldUser = none ∧ x.readsUser = false ∧ x.pastSysPop = false :=
  fun x hx => ConsumerPc.inert_of_not_inRun (hs.others h hc x hx)

/-- The system ledger after a step of the picked goroutine, when no other goroutine holds a
system message: it is kept if the step keeps it for the picked goroutine. -/
theorem OrderInv.sys_consumerStep (ho : OrderInv tr) {pre post : List (ConsumerPc μ)}
    {c c' : ConsumerPc μ} (h : tr.mb.consumers = pre ++ c :: post)
    (hothers : ∀ x ∈ pre ++ post, x.heldSys = none)
    (hcons : (tr.mb.consumerStep pre post c).consumers = pre ++ c' :: post)
    (hstep : (tr.consumerStep pre post c).handled.filterMap Handled.systemOf ++ c'.heldSys.toList ++
        (tr.mb.consumerStep pre post c).systemMailbox.filterMap Mpsc.Slot.val =
      tr.handled.filterMap Handled.systemOf ++ c.heldSys.toList ++
        tr.mb.systemMailbox.filterMap Mpsc.Slot.val) :
    (tr.consumerStep pre post c).handled.filterMap Handled.systemOf ++
        (tr.consumerStep pre post c).mb.consumers.filterMap ConsumerPc.heldSys ++
        (tr.consumerStep pre post c).mb.systemMailbox.filterMap Mpsc.Slot.val =
      ((tr.consumerStep pre post c).pushed.filterMap Posted.systemOf).filterMap id := by
  rw [Traced.consumerStep_mb, hcons, Traced.consumerStep_pushed]
  exact ledger_pick_of_others _ h hothers ho.sys hstep

/-- The user ledger after a step of the picked goroutine, when no other goroutine holds a user
message: it is kept if the step keeps it for the picked goroutine. -/
theorem OrderInv.user_consumerStep (ho : OrderInv tr) {pre post : List (ConsumerPc μ)}
    {c c' : ConsumerPc μ} (h : tr.mb.consumers = pre ++ c :: post)
    (hothers : ∀ x ∈ pre ++ post, x.heldUser = none)
    (hcons : (tr.mb.consumerStep pre post c).consumers = pre ++ c' :: post)
    (hstep : (tr.consumerStep pre post c).handled.filterMap Handled.userOf ++ c'.heldUser.toList ++
        (tr.mb.consumerStep pre post c).userMailbox.filterMap id =
      tr.handled.filterMap Handled.userOf ++ c.heldUser.toList ++
        tr.mb.userMailbox.filterMap id) :
    (tr.consumerStep pre post c).handled.filterMap Handled.userOf ++
        (tr.consumerStep pre post c).mb.consumers.filterMap ConsumerPc.heldUser ++
        (tr.consumerStep pre post c).mb.userMailbox.filterMap id =
      ((tr.consumerStep pre post c).pushed.filterMap Posted.userOf).filterMap id := by
  rw [Traced.consumerStep_mb, hcons, Traced.consumerStep_pushed]
  exact ledger_pick_of_others _ h hothers ho.user hstep

section Touching

variable (hs : tr.mb.SingleRun) (ho : OrderInv tr) {pre post : List (ConsumerPc μ)}
include hs ho

/-- The system pop moves the first system message, if any, from the queue to the goroutine. -/
theorem OrderInv.runTop (h : tr.mb.consumers = pre ++ .runTop :: post) :
    OrderInv (tr.consumerStep pre post .runTop) := by
  have hothers := others_inert hs h rfl
  obtain ⟨c', hcons, hheldSys, hheldUser, hreads, -, hsys, huser, hsus⟩ :=
    @Mailbox.consumerStep_runTop μ tr.mb pre post
  refine ⟨?_, ?_, ?_, ?_, ?_, ?_⟩
  · refine ho.sys_consumerStep h (fun x hx => (hothers x hx).1) hcons ?_
    rw [Traced.consumerStep_handled, hheldSys, hsys,
      ← Mpsc.Slots.filterMap_val_pop tr.mb.systemMailbox]
    simp [ConsumerPc.handedOn, ConsumerPc.heldSys]
  · refine ho.user_consumerStep h (fun x hx => (hothers x hx).2.1) hcons ?_
    rw [Traced.consumerStep_handled, hheldUser, huser]
    simp [ConsumerPc.handedOn, ConsumerPc.heldUser]
  · -- `Pop` takes a node exactly when it can reach one, and with it the first stamp
    show tr.stamps.tail.length = Mpsc.Slots.visible (tr.mb.consumerStep pre post .runTop).systemMailbox
    rw [hsys, List.length_tail, Mpsc.Slots.visible_pop, ho.stamps]
  · rw [Traced.consumerStep_mb, Traced.consumerStep_handled, hsus, ho.suspended]
    simp [ConsumerPc.handedOn]
  · rw [Traced.consumerStep_mb, hcons]
    refine forall_pick_of_others (fun x hx => (hothers x hx).2.2.1) fun hr => ?_
    rw [hreads] at hr
    cases hr
  · simpa [ConsumerPc.handedOn] using ho.userLog

/-- The user pop moves the first user message, if any, from the queue to the goroutine. -/
theorem OrderInv.userPop (h : tr.mb.consumers = pre ++ .userPop :: post) :
    OrderInv (tr.consumerStep pre post .userPop) := by
  have hothers := others_inert hs h rfl
  obtain ⟨c', hcons, hheldUser, hheldSys, -, hsys, huser, hsus⟩ :=
    @Mailbox.consumerStep_userPop μ tr.mb pre post
  refine ⟨?_, ?_, ?_, ?_, ?_, ?_⟩
  · refine ho.sys_consumerStep h (fun x hx => (hothers x hx).1) hcons ?_
    rw [Traced.consumerStep_handled, hheldSys, hsys]
    simp [ConsumerPc.handedOn, ConsumerPc.heldSys]
  · refine ho.user_consumerStep h (fun x hx => (hothers x hx).2.1) hcons ?_
    rw [Traced.consumerStep_handled, hheldUser, huser, filterMap_id_eq_head tr.mb.userMailbox]
    simp [ConsumerPc.handedOn, ConsumerPc.heldUser]
  · show tr.stamps.length = Mpsc.Slots.visible (tr.mb.consumerStep pre post .userPop).systemMailbox
    rw [hsys, ho.stamps]
  · rw [Traced.consumerStep_mb, Traced.consumerStep_handled, hsus, ho.suspended]
    simp [ConsumerPc.handedOn]
  · -- the goroutine at the user pop read `suspended` as false, and it has not changed
    rw [Traced.consumerStep_mb, hcons, hsus]
    exact forall_pick_of_others (fun x hx => (hothers x hx).2.2.1) fun _ =>
      ho.readsUser .userPop (h ▸ List.mem_append_right _ List.mem_cons_self) rfl
  · simpa [ConsumerPc.handedOn] using ho.userLog

/-- Handing a system message on records it, and `SuspendMailbox` or `ResumeMailbox` sets the
flag accordingly. -/
theorem OrderInv.sysDecrement (m : SystemMessage μ)
    (h : tr.mb.consumers = pre ++ .sysDecrement m :: post) :
    OrderInv (tr.consumerStep pre post (.sysDecrement m)) := by
  have hothers := others_inert hs h rfl
  obtain ⟨hcons, hsys, huser, hsus⟩ := @Mailbox.consumerStep_sysDecrement μ tr.mb pre post m
  refine ⟨?_, ?_, ?_, ?_, ?_, ?_⟩
  · refine ho.sys_consumerStep h (fun x hx => (hothers x hx).1) hcons ?_
    rw [Traced.consumerStep_handled, hsys]
    simp [ConsumerPc.handedOn, ConsumerPc.heldSys, Handled.systemOf]
  · refine ho.user_consumerStep h (fun x hx => (hothers x hx).2.1) hcons ?_
    rw [Traced.consumerStep_handled, huser]
    simp [ConsumerPc.handedOn, ConsumerPc.heldUser, Handled.userOf]
  · show tr.stamps.length = Mpsc.Slots.visible (tr.mb.consumerStep pre post (.sysDecrement m)).systemMailbox
    rw [hsys, ho.stamps]
  · rw [Traced.consumerStep_mb, Traced.consumerStep_handled, hsus, ho.suspended]
    exact (suspendedAfter_append_singleton _ _).symm
  · rw [Traced.consumerStep_mb, hcons]
    exact forall_pick_of_others (fun x hx => (hothers x hx).2.2.1) fun hr => by cases hr
  · exact userLog_append_system ho m

/-- Invoking a user message records it; `suspended` was false, as the goroutine read it. -/
theorem OrderInv.userDecrement (m : μ) (h : tr.mb.consumers = pre ++ .userDecrement m :: post) :
    OrderInv (tr.consumerStep pre post (.userDecrement m)) := by
  have hothers := others_inert hs h rfl
  obtain ⟨hcons, hsys, huser, hsus⟩ := @Mailbox.consumerStep_userDecrement μ tr.mb pre post m
  have hfalse : suspendedAfter tr.handled = false := by
    rw [← ho.suspended]
    exact ho.readsUser (.userDecrement m) (h ▸ List.mem_append_right _ List.mem_cons_self) rfl
  refine ⟨?_, ?_, ?_, ?_, ?_, ?_⟩
  · refine ho.sys_consumerStep h (fun x hx => (hothers x hx).1) hcons ?_
    rw [Traced.consumerStep_handled, hsys]
    simp [ConsumerPc.handedOn, ConsumerPc.heldSys, Handled.systemOf]
  · refine ho.user_consumerStep h (fun x hx => (hothers x hx).2.1) hcons ?_
    rw [Traced.consumerStep_handled, huser]
    simp [ConsumerPc.handedOn, ConsumerPc.heldUser, Handled.userOf]
  · show tr.stamps.length = Mpsc.Slots.visible (tr.mb.consumerStep pre post (.userDecrement m)).systemMailbox
    rw [hsys, ho.stamps]
  · rw [Traced.consumerStep_mb, Traced.consumerStep_handled, hsus, ho.suspended]
    show _ = suspendedAfter (tr.handled ++ [.user m])
    rw [suspendedAfter_append_singleton]
    rfl
  · rw [Traced.consumerStep_mb, hcons]
    exact forall_pick_of_others (fun x hx => (hothers x hx).2.2.1) fun hr => by cases hr
  · -- the new user message comes after everything handled, when the flag was clear
    intro pre' u post' hlog
    rw [Traced.consumerStep_handled] at hlog
    rcases eq_or_of_append_singleton hlog with ⟨rfl, -, -⟩ | ⟨post'', -, hl⟩
    · exact hfalse
    · exact ho.userLog pre' u post'' hl

end Touching

theorem OrderInv.consumerStep (hs : tr.mb.SingleRun) (ho : OrderInv tr)
    {pre post : List (ConsumerPc μ)} {c : ConsumerPc μ} (h : tr.mb.consumers = pre ++ c :: post) :
    OrderInv (tr.consumerStep pre post c) := by
  cases hc : c.touches with
  | false => exact ho.consumerStep_of_not_touches h hc
  | true =>
    cases c with
    | runTop => exact ho.runTop hs h
    | userPop => exact ho.userPop hs h
    | sysDecrement m => exact ho.sysDecrement hs m h
    | userDecrement m => exact ho.userDecrement hs m h
    | _ => cases hc

end OrderSteps

/-- What bounds the wait of a system message, in runs without nil messages: each system message
`Pop` can reach has seen at most one user message invoked since it became reachable; and while a
goroutine is past a system pop, which could reach nothing, every system message it can reach has
become reachable since, no user message having been invoked in between. -/
structure OvertakeInv (tr : Traced μ) : Prop where
  bound : ∀ s ∈ tr.stamps, tr.usersHandled ≤ s + 1
  fresh : ∀ c ∈ tr.mb.consumers, c.pastSysPop = true → ∀ s ∈ tr.stamps, s = tr.usersHandled

namespace Traced

variable (tr : Traced μ)

/-- A post's step stamps with the current count. -/
theorem mem_stamps_postStep {pre post : List (Post μ)} {p : Post μ} {s : ℕ}
    (hs : s ∈ (tr.postStep pre post p).stamps) : s ∈ tr.stamps ∨ s = tr.usersHandled := by
  rcases List.mem_append.mp hs with hs | hs
  · exact .inl hs
  · exact .inr (List.eq_of_mem_replicate hs)

theorem usersHandled_consumerStep (pre post : List (ConsumerPc μ)) (c : ConsumerPc μ) :
    (tr.consumerStep pre post c).usersHandled =
      tr.usersHandled + (c.handedOn.filterMap Handled.userOf).length := by
  simp [usersHandled, List.filterMap_append]

end Traced

section OvertakeSteps

variable {tr : Traced μ}

/-- A step that keeps the stamps and the count, and after which a goroutine is past a system pop
only if one was before, keeps the invariant. -/
theorem OvertakeInv.of_same {tr' : Traced μ} (hv : OvertakeInv tr) (hst : tr'.stamps = tr.stamps)
    (hu : tr'.usersHandled = tr.usersHandled)
    (hpast : ∀ x ∈ tr'.mb.consumers, x.pastSysPop = true →
      ∃ y ∈ tr.mb.consumers, y.pastSysPop = true) :
    OvertakeInv tr' := by
  refine ⟨?_, fun x hx hx' => ?_⟩
  · rw [hst, hu]
    exact hv.bound
  · obtain ⟨y, hy, hy'⟩ := hpast x hx hx'
    rw [hst, hu]
    exact hv.fresh y hy hy'

/-- A system message that becomes reachable is stamped with the current count. -/
theorem OvertakeInv.postStep (hv : OvertakeInv tr) (pre post : List (Post μ)) (p : Post μ) :
    OvertakeInv (tr.postStep pre post p) := by
  refine ⟨fun s hs => ?_, fun x hx hx' s hs => ?_⟩
  · rcases tr.mem_stamps_postStep hs with hs | rfl
    · exact hv.bound s hs
    · exact Nat.le_succ _
  · -- a goroutine the step starts is at the top of `run`, not past a system pop
    rcases Mailbox.mem_consumers_postStep _ _ _ _ hx with hx | rfl
    · rcases tr.mem_stamps_postStep hs with hs | rfl
      · exact hv.fresh x hx hx' s hs
      · rfl
    · cases hx'

/-- The system pop drops the first stamp; when it finds nothing, it can reach nothing, and there
are no stamps. -/
theorem OvertakeInv.runTop (hn : tr.mb.NilFree) (ho : OrderInv tr) (hv : OvertakeInv tr)
    {pre post : List (ConsumerPc μ)} (h : tr.mb.consumers = pre ++ .runTop :: post) :
    OvertakeInv (tr.consumerStep pre post .runTop) := by
  obtain ⟨c', hcons, -, -, -, hpast', -⟩ := @Mailbox.consumerStep_runTop μ tr.mb pre post
  have hst : (tr.consumerStep pre post .runTop).stamps = tr.stamps.tail := rfl
  have hu : (tr.consumerStep pre post .runTop).usersHandled = tr.usersHandled := by
    rw [Traced.usersHandled_consumerStep]
    rfl
  refine ⟨fun s hs => ?_, fun x hx hx' s hs => ?_⟩
  · rw [hst] at hs
    rw [hu]
    exact hv.bound s (List.mem_of_mem_tail hs)
  · rw [hst] at hs
    rw [hu]
    rw [Traced.consumerStep_mb, hcons, mem_pick] at hx
    rcases hx with rfl | hx
    · rw [hpast'] at hx'
      have hzero := Mpsc.Slots.visible_eq_zero_of_pop _ hn.systemMailbox (Option.isNone_iff_eq_none.mp hx')
      have hnil : tr.stamps = [] := List.length_eq_zero_iff.mp (by rw [ho.stamps, hzero])
      rw [hnil] at hs
      cases hs
    · exact hv.fresh x (h ▸ mem_pick_of_mem _ hx) hx' s (List.mem_of_mem_tail hs)

/-- Invoking a user message: the first since the goroutine found the system queue empty, so each
queued system message has seen exactly this one. -/
theorem OvertakeInv.userDecrement (hs : tr.mb.SingleRun) (hv : OvertakeInv tr)
    {pre post : List (ConsumerPc μ)} (m : μ) (h : tr.mb.consumers = pre ++ .userDecrement m :: post) :
    OvertakeInv (tr.consumerStep pre post (.userDecrement m)) := by
  have hfresh := hv.fresh (.userDecrement m) (h ▸ List.mem_append_right _ List.mem_cons_self) rfl
  have hothers := others_inert hs h rfl
  obtain ⟨hcons, -⟩ := @Mailbox.consumerStep_userDecrement μ tr.mb pre post m
  have hu : (tr.consumerStep pre post (.userDecrement m)).usersHandled = tr.usersHandled + 1 := by
    rw [Traced.usersHandled_consumerStep]
    rfl
  refine ⟨fun s hs => ?_, fun x hx hx' => ?_⟩
  · rw [hu]
    have hs' := hfresh s hs
    omega
  · rw [Traced.consumerStep_mb, hcons, mem_pick] at hx
    rcases hx with rfl | hx
    · cases hx'
    · rw [(hothers x hx).2.2.2] at hx'
      cases hx'

theorem OvertakeInv.consumerStep (hs : tr.mb.SingleRun) (hn : tr.mb.NilFree) (ho : OrderInv tr)
    (hv : OvertakeInv tr) {pre post : List (ConsumerPc μ)} {c : ConsumerPc μ}
    (h : tr.mb.consumers = pre ++ c :: post) : OvertakeInv (tr.consumerStep pre post c) := by
  cases hc : c.touches with
  | false =>
    obtain ⟨o, hcons, -, -, -, hnext⟩ := @Mailbox.consumerStep_of_not_touches μ tr.mb pre post c hc
    refine hv.of_same (Traced.stamps_consumerStep_of_not_touches hc) ?_ fun x hx hx' => ?_
    · rw [Traced.usersHandled_consumerStep, ConsumerPc.handedOn_of_not_touches hc]
      rfl
    · -- the goroutine moved on is past a system pop only if it was
      rw [Traced.consumerStep_mb, hcons] at hx
      rcases mem_pick_of_mem_moved hx with hx | hx
      · exact ⟨c, h ▸ List.mem_append_right _ List.mem_cons_self, (hnext x hx).2.2.2 hx'⟩
      · exact ⟨x, h ▸ hx, hx'⟩
  | true =>
    cases c with
    | runTop => exact hv.runTop hn ho h
    | userDecrement m => exact hv.userDecrement hs m h
    | userPop =>
      obtain ⟨c', hcons, -⟩ := @Mailbox.consumerStep_userPop μ tr.mb pre post
      refine hv.of_same rfl ?_ fun x hx hx' => ?_
      · rw [Traced.usersHandled_consumerStep]
        rfl
      · rw [Traced.consumerStep_mb, hcons, mem_pick] at hx
        rcases hx with rfl | hx
        · exact ⟨.userPop, h ▸ List.mem_append_right _ List.mem_cons_self, rfl⟩
        · exact ⟨x, h ▸ mem_pick_of_mem _ hx, hx'⟩
    | sysDecrement m =>
      obtain ⟨hcons, -⟩ := @Mailbox.consumerStep_sysDecrement μ tr.mb pre post m
      refine hv.of_same rfl ?_ fun x hx hx' => ?_
      · rw [Traced.usersHandled_consumerStep]
        rfl
      · rw [Traced.consumerStep_mb, hcons, mem_pick] at hx
        rcases hx with rfl | hx
        · cases hx'
        · exact ⟨x, h ▸ mem_pick_of_mem _ hx, hx'⟩
    | _ => cases hc

end OvertakeSteps

instance : DecidablePred (Posted.NonNil : Posted μ → Prop)
  | .user m => inferInstanceAs (Decidable (m ≠ none))
  | .system m => inferInstanceAs (Decidable (m ≠ none))

/-- A choice of the scheduler: a new post of a message that is not nil, or a step of the post or
goroutine at an index. -/
inductive Traced.Move (μ : Type)
  | begin (message : Posted μ)
  | post (i : ℕ)
  | consume (i : ℕ)

/-- The traced state after a move, if the move is possible. -/
def Traced.move? (tr : Traced μ) : Traced.Move μ → Option (Traced μ)
  | .begin message => if message.NonNil then some (tr.begin message) else none
  | .post i => tr.mb.posts[i]?.map fun p => tr.postStep (tr.mb.posts.take i) (tr.mb.posts.drop (i + 1)) p
  | .consume i =>
    tr.mb.consumers[i]?.map fun c =>
      tr.consumerStep (tr.mb.consumers.take i) (tr.mb.consumers.drop (i + 1)) c

end ProtoActor.Actor
