import Mathlib.Order.Fin.Basic
import ProtoActor.Collections.Goring
import ProtoActor.Collections.Mpsc

/-!
# The priority queue

`actor/priority_queue.go`: eight sub-queues, one per priority level.  `Push` files an item under
its level: `GetPriority()` clamped to `[0, 7]` for an item that implements `PriorityMessage`,
`DefaultPriority` (4) for any other, a `nil` item included.  `Pop` pops the sub-queues from level
7 down and returns the first value that is not `nil`, or `nil`.

The sub-queues are any queue refining a FIFO list with `nil` for an empty `Pop`
(`QueueImpl.Refines`): `NewPriorityGoringQueue` takes the goring queue behind
`unboundedMailboxQueue` (`unboundedMailboxQueue_refines_fifo`) and `NewPriorityMpscQueue` the
mpsc queue (`Mpsc.mpsc_refines_fifo`).

* `priorityQueue_pops_by_level`: for every sequence of `Push` of non-nil items and `Pop`, the
  priority queue answers as the priority FIFO of the clamped levels (`priorityFifo`): each `Pop`
  returns the earliest pushed item of the highest level holding one, and `nil` exactly when no
  item remains.  `Holds` ties each sub-queue to the pending items of its level.
* `nil_item_hides_higher_levels`: a `nil` item is popped as if its sub-queue were empty and the
  scan goes on, so a `Pop` returns an item of level 0 while one of level 4 waits, and a `Pop`
  returns `nil` while an item remains.
-/

namespace ProtoActor.Actor

open ProtoActor.Collections ProtoActor.Transition

/-- `priorityLevels`. -/
def priorityLevels : ℕ := 8

/-- `DefaultPriority`: `int8(priorityLevels / 2)`. -/
def defaultPriority : Int8 := 4

/-- The clamp of `Push`: below `0` becomes `0`, above `priorityLevels - 1` becomes `7`. -/
def clampPriority (p : Int8) : Int8 :=
  let p := if p < 0 then 0 else p
  if p > 7 then 7 else p

theorem toInt_clampPriority (p : Int8) :
    0 ≤ (clampPriority p).toInt ∧ (clampPriority p).toInt ≤ 7 := by
  have h0 : (0 : Int8).toInt = 0 := by decide
  have h7 : (7 : Int8).toInt = 7 := by decide
  -- the first test leaves a value of at least `0`, the second one of at most `7`
  have hlow : 0 ≤ (if p < 0 then (0 : Int8) else p).toInt := by
    split_ifs with hneg
    · rw [h0]
    · rw [Int8.lt_iff_toInt_lt, h0] at hneg
      omega
  have hhigh : ∀ q : Int8, 0 ≤ q.toInt →
      0 ≤ (if q > 7 then 7 else q).toInt ∧ (if q > 7 then 7 else q).toInt ≤ 7 := by
    intro q hq
    split_ifs with hgt
    · rw [h7]
      omega
    · rw [gt_iff_lt, Int8.lt_iff_toInt_lt, h7] at hgt
      omega
  exact hhigh _ hlow

section Items

variable {α : Type} (getPriority : α → Option Int8)

/-- The priority `Push` gives an item: the clamped `GetPriority()` of a `PriorityMessage`, and
`DefaultPriority` for anything else; a `nil` item fails the type assertion. -/
def itemPriority (item : Option α) : Int8 :=
  match item.bind getPriority with
  | some p => clampPriority p
  | none => defaultPriority

theorem itemPriority_lt (item : Option α) :
    (itemPriority getPriority item).toNatClampNeg < priorityLevels := by
  have hrange : 0 ≤ (itemPriority getPriority item).toInt ∧
      (itemPriority getPriority item).toInt ≤ 7 := by
    unfold itemPriority
    split
    · exact toInt_clampPriority _
    · exact ⟨by decide, by decide⟩
  show (itemPriority getPriority item).toInt.toNat < 8
  omega

/-- The sub-queue `priorityQueues[itemPriority]`. -/
def itemLevel (item : Option α) : Fin priorityLevels :=
  ⟨(itemPriority getPriority item).toNatClampNeg, itemPriority_lt getPriority item⟩

end Items

/-- `priorityQueue`. -/
structure PriorityQueue (Q : Type) where
  priorityQueues : Fin priorityLevels → Q

/-- `NewPriorityQueue`: one new sub-queue per level. -/
def newPriorityQueue {Q : Type} (queueProducer : Q) : PriorityQueue Q :=
  ⟨fun _ => queueProducer⟩

/-- The levels `Pop` tries, from `priorityLevels - 1` down to `0`. -/
def levelsDown : List (Fin priorityLevels) :=
  (List.finRange priorityLevels).reverse

section Queue

variable {α Q : Type} (getPriority : α → Option Int8) (impl : QueueImpl Q (Option α))

/-- `Push`: into the sub-queue of the item's level. -/
def PriorityQueue.push (pq : PriorityQueue Q) (item : Option α) : PriorityQueue Q :=
  let p := itemLevel getPriority item
  ⟨Function.update pq.priorityQueues p (impl.push (pq.priorityQueues p) item)⟩

/-- The loop of `Pop` over the levels `ps`: the first value that is not `nil`. -/
def popLevels : List (Fin priorityLevels) → (Fin priorityLevels → Q) →
    Option α × (Fin priorityLevels → Q)
  | [], qs => (none, qs)
  | p :: ps, qs =>
    let r := impl.pop (qs p)
    let qs := Function.update qs p r.2
    match r.1 with
    | some item => (some item, qs)
    | none => popLevels ps qs

/-- `Pop`. -/
def PriorityQueue.pop (pq : PriorityQueue Q) : Option α × PriorityQueue Q :=
  let r := popLevels impl levelsDown pq.priorityQueues
  (r.1, ⟨r.2⟩)

/-- The priority queue's two operations. -/
def priorityQueue : QueueImpl (PriorityQueue Q) (Option α) :=
  ⟨PriorityQueue.push getPriority impl, PriorityQueue.pop impl⟩

end Queue

/-! ### The sub-queues of the two mailboxes -/

section SubQueues

variable {α : Type}

/-- `unboundedMailboxQueue` (`actor/unbounded.go`): the goring queue, whose failed `Pop` becomes
`nil`. -/
def unboundedMailboxQueue : QueueImpl (Goring.Queue (Option α)) (Option α) where
  push q m := q.push m
  pop q := (if q.pop.1.2 then q.pop.1.1.join else none, q.pop.2)

theorem unboundedMailboxQueue_refines_fifo :
    (unboundedMailboxQueue : QueueImpl _ (Option α)).Refines none Goring.Queue.Refines where
  push x h := h.push x
  pop_nil {q} h := by
    show (if q.pop.1.2 then q.pop.1.1.join else none) = none ∧ q.pop.2.Refines []
    rw [h.pop_nil]
    exact ⟨rfl, h⟩
  pop_cons {q x l} h := by
    obtain ⟨hx, hrest⟩ := h.pop_cons
    show (if q.pop.1.2 then q.pop.1.1.join else none) = x ∧ q.pop.2.Refines l
    rw [hx]
    exact ⟨rfl, hrest⟩

/-- `NewPriorityGoringQueue`. -/
def newPriorityGoringQueue : PriorityQueue (Goring.Queue (Option α)) :=
  newPriorityQueue (Goring.new 10)

/-- `NewPriorityMpscQueue`. -/
def newPriorityMpscQueue : PriorityQueue (Mpsc.Queue α) :=
  newPriorityQueue Mpsc.new

end SubQueues

/-! ### The loop of `Pop`, one level at a time -/

section Loop

variable {α Q : Type} {impl : QueueImpl Q (Option α)} {qs : Fin priorityLevels → Q}
  {p : Fin priorityLevels} {ps : List (Fin priorityLevels)}

theorem popLevels_cons_of_none (h : (impl.pop (qs p)).1 = none) :
    popLevels impl (p :: ps) qs = popLevels impl ps (Function.update qs p (impl.pop (qs p)).2) := by
  simp only [popLevels, h]

theorem popLevels_cons_of_some {x : α} (h : (impl.pop (qs p)).1 = some x) :
    popLevels impl (p :: ps) qs = (some x, Function.update qs p (impl.pop (qs p)).2) := by
  simp only [popLevels, h]

/-- Each level holds `Pop` tries once, from the highest: a level is preceded by exactly the
higher ones. -/
theorem levelsDown_split (m : Fin priorityLevels) :
    ∃ pre post, levelsDown = pre ++ m :: post ∧ ∀ q ∈ pre, m < q := by
  have hmem : m ∈ levelsDown := by
    rw [levelsDown, List.mem_reverse]
    exact List.mem_finRange m
  have hdesc : levelsDown.Pairwise (· > ·) := by decide
  obtain ⟨pre, post, hsplit⟩ := List.mem_iff_append.mp hmem
  refine ⟨pre, post, hsplit, fun q hq => ?_⟩
  rw [hsplit, List.pairwise_append] at hdesc
  exact hdesc.2.2 q hq m List.mem_cons_self

end Loop

/-! ### Refinement of the priority FIFO -/

section Refinement

variable {α Q : Type} {getPriority : α → Option Int8} {impl : QueueImpl Q (Option α)}
  {R : Q → List (Option α) → Prop}

/-- Each sub-queue holds the pending items of its level, and no pending item is `nil`. -/
structure Holds (getPriority : α → Option Int8) (R : Q → List (Option α) → Prop)
    (qs : Fin priorityLevels → Q) (pending : List (Option α)) : Prop where
  levels : ∀ p, R (qs p) (byLevel (itemLevel getPriority) pending p)
  no_nil : none ∉ pending

theorem holds_new {queueProducer : Q} (h0 : R queueProducer []) :
    Holds getPriority R (newPriorityQueue queueProducer).priorityQueues [] :=
  ⟨fun _ => h0, List.not_mem_nil⟩

/-- **Frame rule.** A new state of one sub-queue, holding its level of the new items, where
every other level holds what it held. -/
theorem Holds.update {qs : Fin priorityLevels → Q} {pending pending' : List (Option α)}
    (h : Holds getPriority R qs pending) (hnil : none ∉ pending') {p : Fin priorityLevels} {q : Q}
    (hq : R q (byLevel (itemLevel getPriority) pending' p))
    (hother : ∀ r, r ≠ p →
      byLevel (itemLevel getPriority) pending' r = byLevel (itemLevel getPriority) pending r) :
    Holds getPriority R (Function.update qs p q) pending' := by
  refine ⟨fun r => ?_, hnil⟩
  by_cases hr : r = p
  · subst hr
    rw [Function.update_self]
    exact hq
  · rw [Function.update_of_ne hr, hother r hr]
    exact h.levels r

/-- `Push` of a non-nil item appends it to its level. -/
theorem Holds.push (hR : impl.Refines none R) {qs : Fin priorityLevels → Q}
    {pending : List (Option α)} (h : Holds getPriority R qs pending) (x : α) :
    Holds getPriority R (PriorityQueue.push getPriority impl ⟨qs⟩ (some x)).priorityQueues
      (pending ++ [some x]) := by
  have hnil : none ∉ pending ++ [some x] := by simp [h.no_nil]
  refine h.update hnil ?_ fun r hr => ?_
  · rw [byLevel_append_singleton, if_pos rfl]
    exact hR.push _ (h.levels _)
  · rw [byLevel_append_singleton, if_neg (Ne.symm hr), List.append_nil]

/-- Levels without items pop `nil` and go on holding nothing. -/
theorem popLevels_append_of_empty (hR : impl.Refines none R) {pending : List (Option α)} :
    ∀ (pre rest : List (Fin priorityLevels)) {qs : Fin priorityLevels → Q},
      Holds getPriority R qs pending →
      (∀ p ∈ pre, byLevel (itemLevel getPriority) pending p = []) →
      ∃ qs', Holds getPriority R qs' pending ∧ popLevels impl (pre ++ rest) qs = popLevels impl rest qs'
  | [], _, qs, h, _ => ⟨qs, h, rfl⟩
  | p :: pre, rest, qs, h, hempty => by
    have hp := hempty p List.mem_cons_self
    have hq := h.levels p
    rw [hp] at hq
    obtain ⟨hnil, hrest⟩ := hR.pop_nil hq
    have h' := h.update h.no_nil (p := p) (hp ▸ hrest) fun _ _ => rfl
    obtain ⟨qs', h'', heq⟩ := popLevels_append_of_empty hR pre rest h'
      fun r hr => hempty r (List.mem_cons_of_mem p hr)
    exact ⟨qs', h'', by rw [List.cons_append, popLevels_cons_of_none hnil, heq]⟩

/-- **`Pop`** answers as the priority FIFO, and keeps each level in step. -/
theorem Holds.pop (hR : impl.Refines none R) {qs : Fin priorityLevels → Q}
    {pending : List (Option α)} (h : Holds getPriority R qs pending) :
    (popLevels impl levelsDown qs).1 = ((priorityFifo (itemLevel getPriority) none).pop pending).1 ∧
      Holds getPriority R (popLevels impl levelsDown qs).2
        ((priorityFifo (itemLevel getPriority) none).pop pending).2 := by
  cases hm : (pending.map (itemLevel getPriority)).max? with
  | none =>
    -- nothing is pending: every level pops `nil`
    have hpending : pending = [] := List.map_eq_nil_iff.mp (List.max?_eq_none_iff.mp hm)
    subst hpending
    obtain ⟨qs', h', heq⟩ := popLevels_append_of_empty hR levelsDown [] h fun _ _ => rfl
    rw [List.append_nil] at heq
    rw [heq]
    exact ⟨rfl, h'⟩
  | some m =>
    have hle : ∀ y ∈ pending, itemLevel getPriority y ≤ m :=
      fun y hy => (List.max?_eq_some_iff.mp hm).2 _ (List.mem_map_of_mem hy)
    -- the levels above `m` hold nothing
    obtain ⟨pre, post, hsplit, hpre⟩ := levelsDown_split m
    have hempty : ∀ q ∈ pre, byLevel (itemLevel getPriority) pending q = [] := by
      intro q hq
      refine List.filter_eq_nil_iff.mpr fun y hy hyq => ?_
      have := hle y hy
      rw [beq_iff_eq] at hyq
      exact absurd (hyq ▸ hpre q hq) (not_lt.mpr this)
    obtain ⟨qs', h', heq⟩ := popLevels_append_of_empty hR pre (m :: post) h hempty
    -- level `m` holds the first item of that level, which is not `nil`
    obtain ⟨x, hfind⟩ : ∃ x, pending.find? (itemLevel getPriority · == m) = some x := by
      obtain ⟨y, hy, hym⟩ := List.mem_map.mp (List.max?_mem hm)
      exact Option.isSome_iff_exists.mp (List.find?_isSome.mpr ⟨y, hy, beq_iff_eq.mpr hym⟩)
    have hx : x ∈ pending := List.mem_of_find?_eq_some hfind
    obtain ⟨a, rfl⟩ : ∃ a, x = some a :=
      Option.ne_none_iff_exists'.mp fun hxn => h.no_nil (hxn ▸ hx)
    obtain ⟨rest, hlevel⟩ : ∃ rest, byLevel (itemLevel getPriority) pending m = some a :: rest := by
      refine ⟨(byLevel (itemLevel getPriority) pending m).tail, ?_⟩
      have hhead : (byLevel (itemLevel getPriority) pending m).head? = some (some a) := by
        rw [byLevel, List.head?_filter]
        exact hfind
      exact List.eq_cons_of_mem_head? hhead
    have hq := h'.levels m
    rw [hlevel] at hq
    obtain ⟨hpop, hrest⟩ := hR.pop_cons hq
    have hnil : none ∉ pending.eraseP (itemLevel getPriority · == m) :=
      fun hn => h.no_nil (List.mem_of_mem_eraseP hn)
    have habs : (priorityFifo (itemLevel getPriority) none).pop pending =
        (some a, pending.eraseP (itemLevel getPriority · == m)) := by
      show ((priorityPop _ pending).1.getD none, (priorityPop _ pending).2) = _
      rw [priorityPop_of_max hm, hfind]
      rfl
    rw [hsplit, heq, popLevels_cons_of_some hpop, habs]
    refine ⟨rfl, h'.update hnil ?_ fun r hr => byLevel_eraseP_of_ne pending hr⟩
    rw [byLevel_eraseP_self, hlevel]
    exact hrest

/-- A call whose item, if any, is not `nil`. -/
inductive PriorityCall (α : Type)
  | push (item : α)
  | pop
  deriving DecidableEq, Repr

/-- The call on the queue. -/
def PriorityCall.toQueueCall : PriorityCall α → QueueCall (Option α)
  | .push item => .push (some item)
  | .pop => .pop

theorem Holds.call (hR : impl.Refines none R) {pq : PriorityQueue Q} {pending : List (Option α)}
    (h : Holds getPriority R pq.priorityQueues pending) (c : PriorityCall α) :
    ((priorityQueue getPriority impl).call pq c.toQueueCall).1 =
        ((priorityFifo (itemLevel getPriority) none).call pending c.toQueueCall).1 ∧
      Holds getPriority R ((priorityQueue getPriority impl).call pq c.toQueueCall).2.priorityQueues
        ((priorityFifo (itemLevel getPriority) none).call pending c.toQueueCall).2 := by
  cases c with
  | push x => exact ⟨rfl, h.push hR x⟩
  | pop =>
    obtain ⟨hout, hholds⟩ := h.pop hR
    exact ⟨by simp only [PriorityCall.toQueueCall, QueueImpl.call, priorityQueue,
      PriorityQueue.pop, hout], hholds⟩

theorem priorityQueue_pops_by_level (impl : QueueImpl Q (Option α)) (hR : impl.Refines none R)
    {queueProducer : Q} (h0 : R queueProducer []) (calls : List (PriorityCall α)) :
    outputs (priorityQueue getPriority impl).call (newPriorityQueue queueProducer)
        (calls.map PriorityCall.toQueueCall) =
      outputs (priorityFifo (itemLevel getPriority) none).call [] (calls.map PriorityCall.toQueueCall) ∧
    (∀ pending : List (Option α),
      (priorityPop (itemLevel getPriority) pending).1 = none ↔ pending = []) ∧
    (∀ (pending rest : List (Option α)) (x : Option α),
      priorityPop (itemLevel getPriority) pending = (some x, rest) →
      ∃ pre post, pending = pre ++ x :: post ∧
        (∀ y ∈ pending, itemLevel getPriority y ≤ itemLevel getPriority x) ∧
        (∀ y ∈ pre, itemLevel getPriority y < itemLevel getPriority x) ∧ rest = pre ++ post) := by
  refine ⟨?_, fun _ => priorityPop_eq_none_iff, fun _ _ _ h => priorityPop_eq_some h⟩
  rw [outputs_map, outputs_map]
  exact (outputs_eq_of_simulation (fun pq pending => Holds getPriority R pq.priorityQueues pending)
    (fun _ _ c h => h.call hR c) calls (holds_new h0)).1

end Refinement

/-! ### The goring mailbox, and `nil` items -/

/-- The messages of `priority_queue_test.go`: a `TestMessage` has no priority, a
`TestPriorityMessage` has one. -/
inductive TestMessage
  | testMessage (message : String)
  | testPriorityMessage (message : String) (priority : Int8)
  deriving DecidableEq, Repr

/-- `GetPriority`, for the messages that implement `PriorityMessage`. -/
def TestMessage.getPriority : TestMessage → Option Int8
  | .testMessage _ => none
  | .testPriorityMessage _ priority => some priority

/-- Pushes at levels 0, 4 and 7, and a `Pop` more than there are items, as in
`TestPushPopGoringPriority`. -/
def testPushPopGoringPriority : List (PriorityCall TestMessage) :=
  [.push (.testPriorityMessage "0 hello" 0), .push (.testMessage "hello"),
    .push (.testPriorityMessage "7 hello" 7), .pop, .pop, .pop, .pop]

theorem priorityQueue_pops_by_level_on_goring :
    outputs (priorityQueue TestMessage.getPriority unboundedMailboxQueue).call
        newPriorityGoringQueue (testPushPopGoringPriority.map PriorityCall.toQueueCall) =
      outputs (priorityFifo (itemLevel TestMessage.getPriority) none).call []
        (testPushPopGoringPriority.map PriorityCall.toQueueCall) ∧
    (∀ pending : List (Option TestMessage),
      (priorityPop (itemLevel TestMessage.getPriority) pending).1 = none ↔ pending = []) ∧
    (∀ (pending rest : List (Option TestMessage)) (x : Option TestMessage),
      priorityPop (itemLevel TestMessage.getPriority) pending = (some x, rest) →
      ∃ pre post, pending = pre ++ x :: post ∧
        (∀ y ∈ pending, itemLevel TestMessage.getPriority y ≤ itemLevel TestMessage.getPriority x) ∧
        (∀ y ∈ pre, itemLevel TestMessage.getPriority y < itemLevel TestMessage.getPriority x) ∧
        rest = pre ++ post) :=
  priorityQueue_pops_by_level unboundedMailboxQueue unboundedMailboxQueue_refines_fifo
    (Goring.refines_new 10 (by decide)) testPushPopGoringPriority

theorem nil_item_hides_higher_levels :
    outputs (priorityQueue TestMessage.getPriority unboundedMailboxQueue).call newPriorityGoringQueue
        [.push none, .push (some (.testMessage "hello")),
          .push (some (.testPriorityMessage "0 hello" 0)), .pop] =
      [none, none, none, some (some (.testPriorityMessage "0 hello" 0))] ∧
    (itemLevel TestMessage.getPriority (some (.testMessage "hello"))).val = 4 ∧
    (itemLevel TestMessage.getPriority (some (.testPriorityMessage "0 hello" 0))).val = 0 ∧
    outputs (priorityQueue TestMessage.getPriority unboundedMailboxQueue).call newPriorityGoringQueue
        [.push none, .push (some (.testMessage "hello")), .pop, .pop] =
      [none, none, some none, some (some (.testMessage "hello"))] := by
  decide

end ProtoActor.Actor
