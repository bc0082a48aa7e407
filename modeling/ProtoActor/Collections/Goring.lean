import Mathlib.Data.List.Basic
import ProtoActor.Transition.Run

/-!
# The goring queue

`internal/queue/goring/queue.go`, the queue of the unbounded user mailbox.  A ring buffer of
`mod` slots keeps its live elements at the positions `head + 1, …, tail` modulo `mod`, one slot
always unused: `Push` advances the tail and writes there, first doubling the buffer when the
tail has caught up with the head; `Pop` advances the head and reads there; `PopMany` reads
`min(count, len)` slots after the head and advances the head past them.  Slots are cleared to
`nil` once read.

The queue is a FIFO list: `Queue.Refines q l` is the ring invariant with the live elements `l`,
and `Queue.Refines.step` says that every operation answers as `fifoStep` does on `l` and keeps
the invariant.  So `goring_refines_fifo`: from `New(n)` with `n ≥ 1`, every sequence of `Push`,
`Pop`, `PopMany` and `Length` answers as the FIFO list does, and the ring invariant holds after
it, resizes included.

The lock is left out: every operation runs as one step.  The fields are `int64` in Go and
natural numbers here; doubling `mod` cannot overflow before the buffer outgrows memory.
-/

namespace ProtoActor.Collections.Goring

open ProtoActor.Transition

variable {α : Type}

/-- `ringBuffer`; a slot holds `none` for `nil`. -/
structure RingBuffer (α : Type) where
  buffer : List (Option α)
  head : ℕ
  tail : ℕ
  mod : ℕ

/-- `Queue`, without its lock. -/
structure Queue (α : Type) where
  len : ℕ
  content : RingBuffer α

/-- `New`. -/
def new (initialSize : ℕ) : Queue α :=
  ⟨0, ⟨List.replicate initialSize none, 0, 0, initialSize⟩⟩

/-- One turn of the copy loop of `Push`'s resize: slot `i` of the new buffer gets the slot `i`
places after the tail. -/
def copyStep (c : RingBuffer α) (newBuff : List (Option α)) (i : ℕ) : List (Option α) :=
  newBuff.set i (c.buffer.getD ((c.tail + i) % c.mod) none)

/-- The resize of `Push`, once the tail has caught up with the head: a buffer twice as long,
the slots from the tail on copied to its start, the head at `0` and the tail at the old `mod`. -/
def resize (c : RingBuffer α) : RingBuffer α :=
  let fillFactor := 2
  let newLen := c.mod * fillFactor
  let newBuff := runFrom (copyStep c) (List.replicate newLen none) (List.range c.mod)
  ⟨newBuff, 0, c.mod, newLen⟩

/-- `Push`. -/
def Queue.push (q : Queue α) (item : α) : Queue α :=
  let c := q.content
  let c := { c with tail := (c.tail + 1) % c.mod }
  let content := if c.tail = c.head then resize c else c
  { len := q.len + 1, content := { content with buffer := content.buffer.set content.tail (some item) } }

/-- `Length`. -/
def Queue.length (q : Queue α) : ℕ :=
  q.len

/-- `Empty`. -/
def Queue.empty (q : Queue α) : Bool :=
  q.length == 0

/-- `Pop`: the element and `true`, or `nil` and `false` on an empty queue. -/
def Queue.pop (q : Queue α) : (Option α × Bool) × Queue α :=
  if q.empty then ((none, false), q)
  else
    let c := q.content
    let c := { c with head := (c.head + 1) % c.mod }
    let res := c.buffer.getD c.head none
    let c := { c with buffer := c.buffer.set c.head none }
    ((res, true), { len := q.len - 1, content := c })

/-- One turn of the loop of `PopMany`: the slot `i` places after the head goes to the result,
and is cleared. -/
def popManyStep (c : RingBuffer α) (acc : List (Option α) × List (Option α)) (i : ℕ) :
    List (Option α) × List (Option α) :=
  let pos := (c.head + 1 + i) % c.mod
  (acc.1.set i (acc.2.getD pos none), acc.2.set pos none)

/-- `PopMany`: up to `count` elements and `true`, or `nil` and `false` on an empty queue. -/
def Queue.popMany (q : Queue α) (count : ℕ) : (List (Option α) × Bool) × Queue α :=
  if q.empty then (([], false), q)
  else
    let c := q.content
    let count := if count ≥ q.len then q.len else count
    let len := q.len - count
    let r := runFrom (popManyStep c) (List.replicate count none, c.buffer) (List.range count)
    ((r.1, true), { len, content := { c with buffer := r.2, head := (c.head + count) % c.mod } })

/-! ### Operations, and the FIFO list they implement -/

/-- The operations of the queue. -/
inductive QueueOp (α : Type)
  | push (item : α)
  | pop
  | popMany (count : ℕ)
  | length

/-- What an operation returns. -/
inductive QueueOutput (α : Type)
  | pushed
  | popped (res : Option α) (ok : Bool)
  | poppedMany (res : List (Option α)) (ok : Bool)
  | length (n : ℕ)
  deriving DecidableEq

/-- One operation on the queue. -/
def Queue.step (q : Queue α) : QueueOp α → QueueOutput α × Queue α
  | .push item => (.pushed, q.push item)
  | .pop => (.popped q.pop.1.1 q.pop.1.2, q.pop.2)
  | .popMany count => (.poppedMany (q.popMany count).1.1 (q.popMany count).1.2, (q.popMany count).2)
  | .length => (.length q.length, q)

/-- A FIFO list: what the queue is for.  Popping from the empty list fails. -/
def fifoStep : List α → QueueOp α → QueueOutput α × List α
  | l, .push item => (.pushed, l ++ [item])
  | [], .pop => (.popped none false, [])
  | x :: l, .pop => (.popped (some x) true, l)
  | [], .popMany _ => (.poppedMany [] false, [])
  | x :: l, .popMany count => (.poppedMany (((x :: l).take count).map some) true, (x :: l).drop count)
  | l, .length => (.length l.length, l)

/-! ### The ring invariant -/

/-- The ring invariant, with the live elements `l` in order: the slots are `mod` many, head and
tail are slots, one slot stays unused, `len` is `tail - head` modulo `mod`, and `l[i]` is in the
slot `head + 1 + i` modulo `mod`. -/
structure Queue.Refines (q : Queue α) (l : List α) : Prop where
  mod_pos : 0 < q.content.mod
  length_buffer : q.content.buffer.length = q.content.mod
  head_lt : q.content.head < q.content.mod
  tail_lt : q.content.tail < q.content.mod
  len_eq : q.len = l.length
  len_lt : l.length < q.content.mod
  len_mod : (q.content.tail + q.content.mod - q.content.head) % q.content.mod = q.len
  live : ∀ i (hi : i < l.length),
    q.content.buffer[(q.content.head + 1 + i) % q.content.mod]? = some (some l[i])

/-- Below two turns of the ring, the remainder takes one subtraction at most. -/
theorem mod_cases_of_lt_two_mul {a m : ℕ} (h : a < 2 * m) :
    (a < m ∧ a % m = a) ∨ (m ≤ a ∧ a % m = a - m) := by
  by_cases ha : a < m
  · exact .inl ⟨ha, Nat.mod_eq_of_lt ha⟩
  · refine .inr ⟨Nat.le_of_not_lt ha, ?_⟩
    rw [Nat.mod_eq_sub_mod (Nat.le_of_not_lt ha), Nat.mod_eq_of_lt (by omega)]

/-- Distinct elements less than a turn apart are in distinct slots. -/
theorem slot_ne {head m i j : ℕ} (hhead : head < m) (hi : i < m) (hj : j < m) (hij : i ≠ j) :
    (head + 1 + i) % m ≠ (head + 1 + j) % m := by
  rcases mod_cases_of_lt_two_mul (a := head + 1 + i) (m := m) (by omega) with ⟨_, hmi⟩ | ⟨_, hmi⟩ <;>
    rcases mod_cases_of_lt_two_mul (a := head + 1 + j) (m := m) (by omega) with ⟨_, hmj⟩ | ⟨_, hmj⟩ <;>
    omega

/-- Moving the head `k` slots on moves every later slot with it. -/
theorem slot_add (head k i m : ℕ) : ((head + k) % m + 1 + i) % m = (head + 1 + (k + i)) % m := by
  rw [Nat.add_assoc, Nat.mod_add_mod]
  congr 1
  omega

theorem refines_new (n : ℕ) (hn : 1 ≤ n) : (new n : Queue α).Refines [] where
  mod_pos := hn
  length_buffer := List.length_replicate
  head_lt := hn
  tail_lt := hn
  len_eq := rfl
  len_lt := hn
  len_mod := by simp [new]
  live i hi := absurd hi (Nat.not_lt_zero i)

namespace Queue.Refines

variable {q : Queue α} {l : List α}

/-- The tail is `len` slots after the head. -/
theorem tail_cases (h : q.Refines l) :
    (q.content.head + l.length < q.content.mod ∧ q.content.tail = q.content.head + l.length) ∨
      (q.content.mod ≤ q.content.head + l.length ∧
        q.content.tail + q.content.mod = q.content.head + l.length) := by
  have hlen := h.len_mod
  rw [h.len_eq] at hlen
  have := h.head_lt
  have := h.tail_lt
  have := h.len_lt
  rcases mod_cases_of_lt_two_mul (a := q.content.tail + q.content.mod - q.content.head)
    (m := q.content.mod) (by omega) with ⟨_, hm⟩ | ⟨_, hm⟩ <;> omega

/-- The element `i` of the live elements, read from its slot. -/
theorem getD_slot (h : q.Refines l) {i : ℕ} (hi : i < l.length) :
    q.content.buffer.getD ((q.content.head + 1 + i) % q.content.mod) none = some l[i] := by
  rw [List.getD_eq_getElem?_getD, h.live i hi]
  rfl

end Queue.Refines

/-! ### Push -/

/-- What the copy loop has written after `k` turns: slot `i < k` holds the slot `i` places after
the tail, and the others are as they were. -/
theorem runFrom_copyStep (c : RingBuffer α) (init : List (Option α)) :
    ∀ k, k ≤ init.length → (runFrom (copyStep c) init (List.range k)).length = init.length ∧
      ∀ i, (runFrom (copyStep c) init (List.range k))[i]? =
        if i < k then some (c.buffer.getD ((c.tail + i) % c.mod) none) else init[i]?
  | 0, _ => ⟨rfl, fun i => by simp⟩
  | k + 1, hk => by
    obtain ⟨hlen, hget⟩ := runFrom_copyStep c init k (by omega)
    rw [List.range_succ, runFrom_append, runFrom_cons, runFrom_nil]
    refine ⟨by rw [copyStep, List.length_set, hlen], fun i => ?_⟩
    rw [copyStep, List.getElem?_set, hget, hlen]
    by_cases hik : k = i
    · -- the slot of this turn
      subst hik
      simp [show k < init.length by omega]
    · rw [if_neg hik]
      by_cases hi : i < k
      · simp [hi, show i < k + 1 by omega]
      · simp [hi, show ¬i < k + 1 by omega]

theorem resize_buffer (c : RingBuffer α) :
    (resize c).buffer.length = c.mod * 2 ∧
      ∀ i < c.mod, (resize c).buffer[i]? = some (c.buffer.getD ((c.tail + i) % c.mod) none) := by
  obtain ⟨hlen, hget⟩ := runFrom_copyStep c (List.replicate (c.mod * 2) none) c.mod (by simp; omega)
  refine ⟨by simpa [resize] using hlen, fun i hi => ?_⟩
  simp only [resize]
  rw [hget, if_pos hi]

/-- `Push` when the advanced tail is not the head: the item goes there. -/
theorem Queue.push_eq_of_ne (q : Queue α) (x : α)
    (hne : (q.content.tail + 1) % q.content.mod ≠ q.content.head) :
    q.push x = ⟨q.len + 1, ⟨q.content.buffer.set ((q.content.tail + 1) % q.content.mod) (some x),
      q.content.head, (q.content.tail + 1) % q.content.mod, q.content.mod⟩⟩ := by
  simp only [Queue.push, hne, if_false]

/-- `Push` when the advanced tail is the head: the buffer doubles first, and the item goes to
the slot after the copied ones. -/
theorem Queue.push_eq_of_eq (q : Queue α) (x : α)
    (heq : (q.content.tail + 1) % q.content.mod = q.content.head) :
    q.push x = ⟨q.len + 1,
      ⟨(resize { q.content with tail := (q.content.tail + 1) % q.content.mod }).buffer.set
        q.content.mod (some x), 0, q.content.mod, q.content.mod * 2⟩⟩ := by
  simp only [Queue.push, heq, if_true]
  rfl

namespace Queue.Refines

variable {q : Queue α} {l : List α}

/-- `Push` on a full ring: the buffer doubles, the items are copied in order after the new
head, and the item follows them. -/
theorem push_of_full (h : q.Refines l) (x : α)
    (hwrap : (q.content.tail + 1) % q.content.mod = q.content.head) :
    (q.push x).Refines (l ++ [x]) := by
  have hM := h.mod_pos
  have hH := h.head_lt
  have hT := h.tail_lt
  have hL := h.len_lt
  have htail := h.tail_cases
  have hT' := mod_cases_of_lt_two_mul (a := q.content.tail + 1) (m := q.content.mod) (by omega)
  -- the tail caught up with the head: the ring was full, and the buffer doubles
  have hfull : l.length + 1 = q.content.mod := by omega
  obtain ⟨hrlen, hrget⟩ :=
    resize_buffer { q.content with tail := (q.content.tail + 1) % q.content.mod }
  rw [Queue.push_eq_of_eq q x hwrap]
  dsimp only at hrlen hrget
  refine ⟨?_, ?_, ?_, ?_, ?_, ?_, ?_, fun i hi => ?_⟩
  all_goals dsimp only
  · omega
  · simpa using hrlen
  · omega
  · omega
  · simp [h.len_eq]
  · simp only [List.length_append, List.length_singleton]
    omega
  · -- the new tail is one old ring after the new head
    have h3 := mod_cases_of_lt_two_mul (a := q.content.mod + q.content.mod * 2 - 0)
      (m := q.content.mod * 2) (by omega)
    rw [h.len_eq]
    omega
  · simp only [List.length_append, List.length_singleton] at hi
    rw [Nat.mod_eq_of_lt (by omega : 0 + 1 + i < q.content.mod * 2), List.getElem?_set]
    by_cases hi' : i < l.length
    · -- an old element, copied to the slot after the new head
      rw [if_neg (by omega), hrget (0 + 1 + i) (by omega)]
      have hslot : ((q.content.tail + 1) % q.content.mod + (0 + 1 + i)) % q.content.mod =
          (q.content.head + 1 + i) % q.content.mod := by
        rw [hwrap]
        congr 1
        omega
      simp only [hslot, h.getD_slot hi', List.getElem_append_left hi']
    · -- the item, in the slot after the copied ones
      obtain rfl : i = l.length := by omega
      rw [if_pos (by omega), if_pos (by rw [hrlen]; omega)]
      simp

/-- `Push` on a ring with room: the item goes to the slot after the tail. -/
theorem push_of_not_full (h : q.Refines l) (x : α)
    (hwrap : ¬ (q.content.tail + 1) % q.content.mod = q.content.head) :
    (q.push x).Refines (l ++ [x]) := by
  have hM := h.mod_pos
  have hH := h.head_lt
  have hT := h.tail_lt
  have hL := h.len_lt
  have htail := h.tail_cases
  -- the advanced tail is less than a turn on
  have hT' := mod_cases_of_lt_two_mul (a := q.content.tail + 1) (m := q.content.mod) (by omega)
  -- the item goes to the advanced tail
  rw [Queue.push_eq_of_ne q x hwrap]
  have hT'' := Nat.mod_lt (q.content.tail + 1) hM
  refine ⟨hM, by simp [h.length_buffer], hH, hT'', by simp [h.len_eq], ?_, ?_, fun i hi => ?_⟩
  all_goals dsimp only
  · simp only [List.length_append, List.length_singleton]
    omega
  · have h3 := mod_cases_of_lt_two_mul
      (a := (q.content.tail + 1) % q.content.mod + q.content.mod - q.content.head)
      (m := q.content.mod) (by omega)
    rw [h.len_eq]
    omega
  · simp only [List.length_append, List.length_singleton] at hi
    have hslot := mod_cases_of_lt_two_mul (a := q.content.head + 1 + i) (m := q.content.mod)
      (by omega)
    rw [List.getElem?_set]
    by_cases hi' : i < l.length
    · -- an old element, in its slot
      rw [if_neg (by omega), h.live i hi', List.getElem_append_left hi']
    · -- the item, in the advanced tail
      obtain rfl : i = l.length := by omega
      rw [if_pos (by omega), if_pos (by rw [h.length_buffer]; exact hT'')]
      simp

/-- `Push` appends the item. -/
theorem push (h : q.Refines l) (x : α) : (q.push x).Refines (l ++ [x]) := by
  by_cases hwrap : (q.content.tail + 1) % q.content.mod = q.content.head
  · exact h.push_of_full x hwrap
  · exact h.push_of_not_full x hwrap

end Queue.Refines

/-! ### Pop and PopMany -/

theorem Queue.pop_eq_of_empty (q : Queue α) (h : q.len = 0) : q.pop = ((none, false), q) := by
  simp [Queue.pop, Queue.empty, Queue.length, h]

/-- `Pop` on a nonempty queue: the head advances, and its slot is read and cleared. -/
theorem Queue.pop_eq_of_ne (q : Queue α) (h : q.len ≠ 0) :
    q.pop = ((q.content.buffer.getD ((q.content.head + 1) % q.content.mod) none, true),
      ⟨q.len - 1, ⟨q.content.buffer.set ((q.content.head + 1) % q.content.mod) none,
        (q.content.head + 1) % q.content.mod, q.content.tail, q.content.mod⟩⟩) := by
  simp [Queue.pop, Queue.empty, Queue.length, h]

theorem Queue.popMany_eq_of_empty (q : Queue α) (count : ℕ) (h : q.len = 0) :
    q.popMany count = (([], false), q) := by
  simp [Queue.popMany, Queue.empty, Queue.length, h]

/-- `PopMany` on a nonempty queue: the loop runs `min(count, len)` turns, and the head advances
past the slots it read. -/
theorem Queue.popMany_eq_of_ne (q : Queue α) (count : ℕ) (h : q.len ≠ 0) :
    q.popMany count =
      (((runFrom (popManyStep q.content) (List.replicate (min count q.len) none, q.content.buffer)
          (List.range (min count q.len))).1, true),
        ⟨q.len - min count q.len,
          ⟨(runFrom (popManyStep q.content) (List.replicate (min count q.len) none,
              q.content.buffer) (List.range (min count q.len))).2,
            (q.content.head + min count q.len) % q.content.mod, q.content.tail, q.content.mod⟩⟩) := by
  have hmin : (if count ≥ q.len then q.len else count) = min count q.len := by
    split_ifs <;> omega
  unfold Queue.popMany
  rw [if_neg (by simp [Queue.empty, Queue.length, h])]
  dsimp only
  rw [hmin]

/-- What the first `j` turns of `PopMany`'s loop have done: the first `j` live elements are in
the result, and the later ones still in their slots. -/
structure PopManyInv (c : RingBuffer α) (l : List α) (count j : ℕ)
    (r : List (Option α) × List (Option α)) : Prop where
  length_taken : r.1.length = count
  length_buffer : r.2.length = c.mod
  taken : ∀ i (hi : i < l.length), i < j → r.1[i]? = some (some l[i])
  left : ∀ i (hi : i < l.length), j ≤ i → r.2[(c.head + 1 + i) % c.mod]? = some (some l[i])

namespace Queue.Refines

variable {q : Queue α} {l : List α}

/-- `Pop` on a nonempty queue returns its first element, and the rest is left. -/
theorem pop_cons {x : α} (h : q.Refines (x :: l)) : q.pop.1 = (some x, true) ∧ q.pop.2.Refines l := by
  have hM := h.mod_pos
  have hH := h.head_lt
  have hT := h.tail_lt
  have hL := h.len_lt
  have htail := h.tail_cases
  simp only [List.length_cons] at hL htail
  have hlen : q.len ≠ 0 := by rw [h.len_eq]; simp
  have hH' := mod_cases_of_lt_two_mul (a := q.content.head + 1) (m := q.content.mod) (by omega)
  rw [Queue.pop_eq_of_ne q hlen]
  refine ⟨?_, hM, by simp [h.length_buffer], Nat.mod_lt _ hM, hT, ?_, ?_, ?_, fun i hi => ?_⟩
  · -- the first element is in the slot after the head
    have hfirst := h.getD_slot (i := 0) (by simp)
    simpa using hfirst
  all_goals dsimp only
  · rw [h.len_eq]
    simp
  · omega
  · have h3 := mod_cases_of_lt_two_mul
      (a := q.content.tail + q.content.mod - (q.content.head + 1) % q.content.mod)
      (m := q.content.mod) (by omega)
    rw [h.len_eq]
    simp only [List.length_cons]
    omega
  · -- element `i` of the rest is element `i + 1` of the queue; the cleared slot was element `0`'s
    have hslot := slot_add q.content.head 1 i q.content.mod
    have hne := slot_ne (i := 0) (j := 1 + i) hH hM (by omega) (by omega)
    rw [Nat.add_zero] at hne
    rw [hslot, List.getElem?_set_ne hne, Nat.add_comm 1 i, h.live (i + 1) (by simp; omega)]
    simp

theorem pop_nil (h : q.Refines []) : q.pop = ((none, false), q) :=
  q.pop_eq_of_empty (by rw [h.len_eq]; rfl)

theorem popMany_nil (h : q.Refines []) (count : ℕ) : q.popMany count = (([], false), q) :=
  q.popMany_eq_of_empty count (by rw [h.len_eq]; rfl)

/-- The loop of `PopMany`, turn by turn: each turn reads the next live element, from a slot no
earlier turn has cleared. -/
theorem popManyInv (h : q.Refines l) {count : ℕ} (hcount : count ≤ l.length) :
    ∀ j ≤ count, PopManyInv q.content l count j
      (runFrom (popManyStep q.content) (List.replicate count none, q.content.buffer) (List.range j))
  | 0, _ => ⟨List.length_replicate, h.length_buffer,
      fun i _ hi0 => absurd hi0 (Nat.not_lt_zero i), fun i hi _ => h.live i hi⟩
  | j + 1, hj => by
    obtain ⟨hlt, hlb, htaken, hleft⟩ := h.popManyInv hcount j (by omega)
    have hL := h.len_lt
    rw [List.range_succ, runFrom_append, runFrom_cons, runFrom_nil]
    have hjl : j < l.length := by omega
    -- the slot of element `j`, not cleared yet
    have hread : (runFrom (popManyStep q.content) (List.replicate count none, q.content.buffer)
        (List.range j)).2.getD ((q.content.head + 1 + j) % q.content.mod) none = some l[j] := by
      rw [List.getD_eq_getElem?_getD, hleft j hjl (Nat.le_refl _)]
      rfl
    refine ⟨by simp [popManyStep, hlt], by simp [popManyStep, hlb], fun i hi hij => ?_,
      fun i hi hji => ?_⟩
    · simp only [popManyStep]
      rw [List.getElem?_set]
      by_cases hji : j = i
      · subst hji
        rw [if_pos rfl, if_pos (by omega), hread]
      · rw [if_neg hji]
        exact htaken i hi (by omega)
    · simp only [popManyStep]
      rw [List.getElem?_set_ne (slot_ne h.head_lt (by omega) (by omega) (by omega)),
        hleft i hi (by omega)]

/-- `PopMany` on a nonempty queue returns its first `count` elements, or all of them, and the
rest is left. -/
theorem popMany (h : q.Refines l) (hne : l ≠ []) (count : ℕ) :
    (q.popMany count).1 = ((l.take count).map some, true) ∧
      (q.popMany count).2.Refines (l.drop count) := by
  have hM := h.mod_pos
  have hH := h.head_lt
  have hT := h.tail_lt
  have hL := h.len_lt
  have htail := h.tail_cases
  have hpos : 0 < l.length := List.length_pos_iff.mpr hne
  have hql := h.len_eq
  have hlen : q.len ≠ 0 := by omega
  have hkl : min count q.len ≤ l.length := by rw [h.len_eq]; exact Nat.min_le_right _ _
  obtain ⟨hlt, hlb, htaken, hleft⟩ := h.popManyInv hkl (min count q.len) (Nat.le_refl _)
  rw [Queue.popMany_eq_of_ne q count hlen]
  refine ⟨?_, hM, hlb, Nat.mod_lt _ hM, hT, ?_, ?_, ?_, fun i hi => ?_⟩
  · -- the result is the first `min(count, len)` elements
    refine Prod.ext (List.ext_getElem? fun i => ?_) rfl
    dsimp only
    by_cases hi : i < min count q.len
    · rw [htaken i (by omega) hi, List.getElem?_map, List.getElem?_take,
        if_pos (by omega), List.getElem?_eq_getElem (by omega)]
      rfl
    · rw [List.getElem?_eq_none (by omega), List.getElem?_eq_none (by simp; omega)]
  all_goals dsimp only
  · rw [h.len_eq, List.length_drop]
    omega
  · rw [List.length_drop]
    omega
  · rw [hql]
    have hH' := mod_cases_of_lt_two_mul (a := q.content.head + min count l.length)
      (m := q.content.mod) (by omega)
    have h3 := mod_cases_of_lt_two_mul
      (a := q.content.tail + q.content.mod - (q.content.head + min count l.length) % q.content.mod)
      (m := q.content.mod) (by omega)
    omega
  · -- the rest starts `min(count, len)` slots on, which is `count` since the rest is not empty
    rw [List.length_drop] at hi
    have hk : min count q.len = count := by omega
    rw [slot_add, hleft _ (by omega) (by omega), List.getElem_drop]
    simp only [hk]

end Queue.Refines

/-- **Every operation answers as the FIFO list does, and keeps the ring invariant.** -/
theorem Queue.Refines.step {q : Queue α} {l : List α} (h : q.Refines l) (op : QueueOp α) :
    (q.step op).1 = (fifoStep l op).1 ∧ (q.step op).2.Refines (fifoStep l op).2 := by
  cases op with
  | push item => exact ⟨rfl, h.push item⟩
  | pop =>
    cases l with
    | nil =>
      simp only [Queue.step, fifoStep, h.pop_nil]
      exact ⟨trivial, h⟩
    | cons x l =>
      obtain ⟨hout, hrest⟩ := h.pop_cons
      simp only [Queue.step, fifoStep, hout]
      exact ⟨trivial, hrest⟩
  | popMany count =>
    cases l with
    | nil =>
      simp only [Queue.step, fifoStep, h.popMany_nil count]
      exact ⟨trivial, h⟩
    | cons x l =>
      obtain ⟨hout, hrest⟩ := h.popMany (List.cons_ne_nil x l) count
      simp only [Queue.step, fifoStep, hout]
      exact ⟨trivial, hrest⟩
  | length => exact ⟨by simp [Queue.step, fifoStep, Queue.length, h.len_eq], h⟩

/-- From `New(n)` with `n ≥ 1`, every sequence of operations answers as the FIFO list does from
the empty list, and the ring invariant holds after it, with the FIFO list's elements live. -/
theorem goring_refines_fifo (n : ℕ) (hn : 1 ≤ n) (ops : List (QueueOp α)) :
    outputs Queue.step (new n) ops = outputs fifoStep [] ops ∧
      (runFrom (fun q op => (q.step op).2) (new n) ops).Refines
        (runFrom (fun l op => (fifoStep l op).2) [] ops) :=
  outputs_eq_of_simulation Queue.Refines (fun _ _ op h => h.step op) ops (refines_new n hn)

/-- Three pushes on `New(1)`, which resize it twice, then `PopMany(2)` and two pops. -/
def resizingRun : List (QueueOp ℕ) :=
  [.push 1, .push 2, .push 3, .popMany 2, .pop, .pop]

theorem goring_refines_fifo_resizing :
    1 ≤ 1 ∧ outputs Queue.step (new 1) resizingRun = outputs fifoStep [] resizingRun ∧
      (runFrom (fun q op => (q.step op).2) (new 1) resizingRun).Refines
        (runFrom (fun l op => (fifoStep l op).2) [] resizingRun) :=
  ⟨Nat.le_refl 1, goring_refines_fifo 1 (Nat.le_refl 1) resizingRun⟩

example : outputs Queue.step (new 1) resizingRun =
    [.pushed, .pushed, .pushed, .poppedMany [some 1, some 2] true, .popped (some 3) true,
      .popped none false] := by
  decide

end ProtoActor.Collections.Goring
