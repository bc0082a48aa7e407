import Mathlib.Data.List.InsertIdx
import Mathlib.Data.List.Nodup
import ProtoActor.Collections.Fifo

/-!
# The mpsc queue

`internal/queue/mpsc/mpsc.go`, the queue of every system mailbox and of the priority mpsc
mailbox: a singly linked list of nodes from `tail`, the consumer's end, to `head`, the producers'
end.  The node at `tail` is a stub whose value has been read; each node after it holds an item.
`Push` allocates a node, swaps it into `head` and links the old head to it.  `Pop` follows
`tail.next`: when there is a node there, it becomes the new tail and its value is read and
cleared, and otherwise `Pop` returns `nil`.

The nodes live in a heap `nodes`, a pointer is an index into it, and a new node takes the next
free index.  `Queue.Refines q l`: following `next` from `tail` visits distinct allocated nodes
whose values are `l` and ends at `head`, whose `next` is nil (`Chain`).  `mpsc_refines_fifo`: the
queue refines the FIFO list of its items, with `nil` for the `Pop` of an empty queue, which is
also what the `Pop` of a `nil` item returns.

That holds of calls made one after the other.  Concurrent producers make `Push` two atomic steps:
the swap makes the new node the head, and only the link, later, makes it reachable from the node
before it.  Until then `Pop` stops at that node, and so misses every node swapped in after it too,
however far their own pushes have got.  `Slot` is a node after the tail as `Pop` sees it, with
whether it is linked yet; a list of slots in swap order is the queue with its pushes in progress
(`Slots.swap`, `Slots.link`, `Slots.pop`), and `Slots.visible` counts the nodes `Pop` can reach.
`Queue.swap` and `Queue.link` are the two steps on the heap, `Queue.push` is the one after the
other (`link_swap`), and `mpsc_refines_slots`: under any interleaving of swaps, links and pops, the
heap answers every `Pop` as the slots do.  `mpsc_queue_refines` states the two refinements
together.
-/

namespace ProtoActor.Collections.Mpsc

variable {α : Type}

/-- `node`; `none` is a nil `next` or a nil `val`. -/
structure Node (α : Type) where
  next : Option ℕ
  val : Option α

/-- `Queue`, with the heap its pointers point into. -/
structure Queue (α : Type) where
  nodes : List (Node α)
  head : ℕ
  tail : ℕ

/-- `New`: one stub node, both ends at it. -/
def new : Queue α :=
  ⟨[⟨none, none⟩], 0, 0⟩

/-- `next` of the node at a pointer. -/
def nextOf (nodes : List (Node α)) (p : ℕ) : Option ℕ :=
  nodes[p]?.bind Node.next

/-- `val` of the node at a pointer. -/
def valOf (nodes : List (Node α)) (p : ℕ) : Option α :=
  nodes[p]?.bind Node.val

/-- `Push`: a new node with the item becomes the head, and the old head links to it. -/
def Queue.push (q : Queue α) (x : Option α) : Queue α :=
  let n := q.nodes.length
  let nodes := q.nodes ++ [⟨none, x⟩]
  let prev := q.head
  ⟨nodes.modify prev fun node => { node with next := some n }, n, q.tail⟩

/-- `Pop`: the value of the node after the tail, which becomes the tail, or `nil`. -/
def Queue.pop (q : Queue α) : Option α × Queue α :=
  match nextOf q.nodes q.tail with
  | some next =>
    (valOf q.nodes next,
      ⟨q.nodes.modify next fun node => { node with val := none }, q.head, next⟩)
  | none => (none, q)

/-- The queue's two operations. -/
def impl : QueueImpl (Queue α) (Option α) :=
  ⟨Queue.push, Queue.pop⟩

/-! ### Paths through the heap -/

/-- Following `next` from node `t` visits the nodes `ptrs`, in order, and ends at `h`. -/
def Path (nodes : List (Node α)) : ℕ → List ℕ → ℕ → Prop
  | t, [], h => t = h
  | t, p :: ps, h => nextOf nodes t = some p ∧ Path nodes p ps h

theorem Path.end_mem {nodes : List (Node α)} : ∀ {t : ℕ} {ps : List ℕ} {h : ℕ},
    Path nodes t ps h → h ∈ t :: ps
  | _, [], _, hp => by rw [hp]; exact List.mem_cons_self
  | _, _ :: _, _, hp => List.mem_cons_of_mem _ hp.2.end_mem

/-- One more link at the end. -/
theorem Path.snoc {nodes : List (Node α)} {n : ℕ} : ∀ {t : ℕ} {ps : List ℕ} {h : ℕ},
    Path nodes t ps h → nextOf nodes h = some n → Path nodes t (ps ++ [n]) n
  | _, [], _, hp, hn => by rw [hp]; exact ⟨hn, rfl⟩
  | _, _ :: _, _, hp, hn => ⟨hp.1, hp.2.snoc hn⟩

/-- **Frame rule.** A path of distinct nodes only reads the `next` of its nodes before its
end. -/
theorem Path.frame {nodes nodes' : List (Node α)} : ∀ {t : ℕ} {ps : List ℕ} {h : ℕ},
    Path nodes t ps h → (t :: ps).Nodup →
      (∀ p ∈ t :: ps, p ≠ h → nextOf nodes' p = nextOf nodes p) → Path nodes' t ps h
  | _, [], _, hp, _, _ => hp
  | t, p :: ps, h, hp, hnd, hnext => by
    -- the end lies further on, so it is not `t`
    have hth : t ≠ h := by
      rintro rfl
      exact (List.nodup_cons.mp hnd).1 hp.2.end_mem
    refine ⟨(hnext t List.mem_cons_self hth).trans hp.1, hp.2.frame (List.nodup_cons.mp hnd).2 ?_⟩
    exact fun r hr hrh => hnext r (List.mem_cons_of_mem t hr) hrh

/-! ### The invariant -/

/-- The item nodes `ptrs` after the tail hold `l`, and the list ends at the head. -/
structure Chain (q : Queue α) (ptrs : List ℕ) (l : List (Option α)) : Prop where
  path : Path q.nodes q.tail ptrs q.head
  vals : ptrs.map (valOf q.nodes) = l
  head_next : nextOf q.nodes q.head = none
  nodup : (q.tail :: ptrs).Nodup
  lt : ∀ p ∈ q.tail :: ptrs, p < q.nodes.length

/-- The queue holds the items `l`, first to pop first. -/
def Queue.Refines (q : Queue α) (l : List (Option α)) : Prop :=
  ∃ ptrs, Chain q ptrs l

theorem refines_new : (new : Queue α).Refines [] :=
  ⟨[], rfl, rfl, rfl, List.nodup_singleton 0, by simp [new]⟩

/-! ### `Push` -/

section Push

variable (q : Queue α) (x : Option α)

theorem nextOf_push_of_lt {p : ℕ} (hp : p < q.nodes.length) (hph : p ≠ q.head) :
    nextOf (q.push x).nodes p = nextOf q.nodes p := by
  simp [Queue.push, nextOf, Ne.symm hph, List.getElem?_append_left hp]

theorem nextOf_push_head (hh : q.head < q.nodes.length) :
    nextOf (q.push x).nodes q.head = some q.nodes.length := by
  simp [Queue.push, nextOf, List.getElem?_append_left hh, List.getElem?_eq_getElem hh]

theorem nextOf_push_new (hh : q.head < q.nodes.length) :
    nextOf (q.push x).nodes q.nodes.length = none := by
  simp [Queue.push, nextOf, Nat.ne_of_lt hh]

theorem valOf_push_of_lt {p : ℕ} (hp : p < q.nodes.length) :
    valOf (q.push x).nodes p = valOf q.nodes p := by
  simp only [Queue.push, valOf, List.getElem?_modify, List.getElem?_append_left hp]
  cases q.nodes[p]? <;> simp
  split_ifs <;> rfl

theorem valOf_push_new : valOf (q.push x).nodes q.nodes.length = x := by
  simp only [Queue.push, valOf, List.getElem?_modify, List.getElem?_concat_length]
  split_ifs <;> rfl

theorem length_push : (q.push x).nodes.length = q.nodes.length + 1 := by
  simp [Queue.push]

/-- `Push` appends the item: the old head links to the new node, which is the new head. -/
theorem Chain.push {ptrs : List ℕ} {l : List (Option α)} (h : Chain q ptrs l) :
    Chain (q.push x) (ptrs ++ [q.nodes.length]) (l ++ [x]) := by
  have hh : q.head < q.nodes.length := h.lt q.head h.path.end_mem
  have hfresh : q.nodes.length ∉ q.tail :: ptrs := fun hmem => Nat.lt_irrefl _ (h.lt _ hmem)
  -- the path to the old head reads no `next` that `Push` changes
  have hpath : Path (q.push x).nodes q.tail ptrs q.head :=
    h.path.frame h.nodup fun p hp hph => nextOf_push_of_lt q x (h.lt p hp) hph
  refine ⟨hpath.snoc (nextOf_push_head q x hh), ?_, nextOf_push_new q x hh, ?_, ?_⟩
  · rw [List.map_append, ← h.vals, List.map_singleton, valOf_push_new]
    congr 1
    exact List.map_congr_left fun p hp => valOf_push_of_lt q x (h.lt p (List.mem_cons_of_mem _ hp))
  · rw [← List.cons_append, List.nodup_append]
    refine ⟨h.nodup, List.nodup_singleton _, fun a ha b hb hab => ?_⟩
    rw [List.mem_singleton] at hb
    rw [hab, hb] at ha
    exact hfresh ha
  · intro p hp
    rw [length_push]
    rw [← List.cons_append, List.mem_append, List.mem_singleton] at hp
    rcases hp with hp | rfl
    · exact Nat.lt_succ_of_lt (h.lt p hp)
    · exact Nat.lt_succ_self _

end Push

/-! ### `Pop` -/

section Pop

variable (q : Queue α)

theorem pop_of_nextOf {next : ℕ} (h : nextOf q.nodes q.tail = some next) :
    q.pop = (valOf q.nodes next,
      ⟨q.nodes.modify next fun node => { node with val := none }, q.head, next⟩) := by
  simp [Queue.pop, h]

theorem pop_of_nextOf_none (h : nextOf q.nodes q.tail = none) : q.pop = (none, q) := by
  simp [Queue.pop, h]

theorem nextOf_clear (next p : ℕ) :
    nextOf (q.nodes.modify next fun node => { node with val := none }) p = nextOf q.nodes p := by
  simp only [nextOf, List.getElem?_modify]
  cases q.nodes[p]? <;> simp
  split_ifs <;> rfl

theorem valOf_clear_of_ne {next p : ℕ} (hp : p ≠ next) :
    valOf (q.nodes.modify next fun node => { node with val := none }) p = valOf q.nodes p := by
  simp [valOf, Ne.symm hp]

/-- `Pop` of an empty queue returns `nil` and changes nothing. -/
theorem Chain.pop_nil (h : Chain q [] []) : q.pop = (none, q) := by
  have htail : q.tail = q.head := h.path
  exact pop_of_nextOf_none q (htail ▸ h.head_next)

/-- `Pop` reads the first item node, which becomes the stub. -/
theorem Chain.pop_cons {p : ℕ} {ptrs : List ℕ} {x : Option α} {l : List (Option α)}
    (h : Chain q (p :: ptrs) (x :: l)) :
    q.pop.1 = x ∧ Chain q.pop.2 ptrs l := by
  obtain ⟨hnext, hpath⟩ := h.path
  have hvals := h.vals
  rw [List.map_cons, List.cons.injEq] at hvals
  have hnd := List.nodup_cons.mp h.nodup
  rw [pop_of_nextOf q hnext]
  refine ⟨hvals.1, ?_, ?_, ?_, hnd.2, ?_⟩
  · exact hpath.frame hnd.2 fun r _ _ => nextOf_clear q p r
  · -- the later item nodes are not the cleared one
    rw [← hvals.2]
    exact List.map_congr_left fun r hr =>
      valOf_clear_of_ne q fun hrp => (List.nodup_cons.mp hnd.2).1 (hrp ▸ hr)
  · show nextOf _ q.head = none
    rw [nextOf_clear]
    exact h.head_next
  · intro r hr
    rw [List.length_modify]
    exact h.lt r (List.mem_cons_of_mem _ hr)

end Pop

/-- **The queue refines the FIFO list of its items.** -/
theorem mpsc_refines_fifo : (impl : QueueImpl (Queue α) (Option α)).Refines none Queue.Refines where
  push x := fun ⟨ptrs, h⟩ => ⟨_, h.push _ x⟩
  pop_nil := fun ⟨ptrs, h⟩ => by
    have hptrs : ptrs = [] := List.map_eq_nil_iff.mp h.vals
    subst hptrs
    rw [show impl.pop _ = _ from h.pop_nil]
    exact ⟨rfl, _, h⟩
  pop_cons := fun ⟨ptrs, h⟩ => by
    cases ptrs with
    | nil => cases h.vals
    | cons p ptrs =>
      obtain ⟨hx, hrest⟩ := h.pop_cons
      exact ⟨hx, _, hrest⟩

/-! ### Pushes in progress -/

/-- A node after the tail as `Pop` sees it: its pointer, its item, and whether the node before it
links to it yet. -/
structure Slot (α : Type) where
  ptr : ℕ
  val : Option α
  linked : Bool
  deriving DecidableEq, Repr

/-- The slot after the link of the node `ptr`. -/
def Slot.link (ptr : ℕ) (s : Slot α) : Slot α :=
  if s.ptr = ptr then { s with linked := true } else s

@[simp] theorem Slot.ptr_link (ptr : ℕ) (s : Slot α) : (s.link ptr).ptr = s.ptr := by
  unfold Slot.link; split_ifs <;> rfl

@[simp] theorem Slot.val_link (ptr : ℕ) (s : Slot α) : (s.link ptr).val = s.val := by
  unfold Slot.link; split_ifs <;> rfl

theorem Slot.link_of_ne {ptr : ℕ} {s : Slot α} (h : s.ptr ≠ ptr) : s.link ptr = s :=
  if_neg h

theorem Slot.linked_link_of_linked {ptr : ℕ} {s : Slot α} (h : s.linked = true) :
    (s.link ptr).linked = true := by
  unfold Slot.link; split_ifs <;> simp [h]

namespace Slots

/-- `Push`'s swap: the node `ptr` joins at the producers' end, not linked yet. -/
def swap (l : List (Slot α)) (ptr : ℕ) (x : Option α) : List (Slot α) :=
  l ++ [⟨ptr, x, false⟩]

/-- `Push`'s link: the node before `ptr` links to it. -/
def link (l : List (Slot α)) (ptr : ℕ) : List (Slot α) :=
  l.map (Slot.link ptr)

/-- `Pop`: the first node's item, the node leaving, when it is linked; `nil`, with nothing taken,
when the queue is empty or its first node is not linked yet. -/
def pop : List (Slot α) → Option α × List (Slot α)
  | [] => (none, [])
  | s :: l => if s.linked then (s.val, l) else (none, s :: l)

/-- How many nodes `Pop` can reach: those before the first one not linked. -/
def visible : List (Slot α) → ℕ
  | [] => 0
  | s :: l => if s.linked then visible l + 1 else 0

variable (l : List (Slot α))

@[simp] theorem map_ptr_link (ptr : ℕ) : (link l ptr).map Slot.ptr = l.map Slot.ptr := by
  simp [link, Function.comp_def]

@[simp] theorem map_val_link (ptr : ℕ) : (link l ptr).map Slot.val = l.map Slot.val := by
  simp [link, Function.comp_def]

/-- A link leaves the items where they are. -/
theorem filterMap_val_link (ptr : ℕ) : (link l ptr).filterMap Slot.val = l.filterMap Slot.val := by
  simp [link, List.filterMap_map]

/-- A link of a node that is not there changes nothing. -/
theorem link_of_not_mem {ptr : ℕ} (h : ptr ∉ l.map Slot.ptr) : link l ptr = l := by
  conv_rhs => rw [← List.map_id l]
  exact List.map_congr_left fun s hs => Slot.link_of_ne fun hp => h (List.mem_map.mpr ⟨s, hs, hp⟩)

/-- What `Pop` returns, then what it leaves, are the items that were there, nil ones left out. -/
theorem filterMap_val_pop :
    (pop l).1.toList ++ (pop l).2.filterMap Slot.val = l.filterMap Slot.val := by
  cases l with
  | nil => rfl
  | cons s l =>
    cases hs : s.linked
    · simp [pop, hs]
    · cases h : s.val <;> simp [pop, hs, h]

theorem pop_cons_of_linked {s : Slot α} (hs : s.linked = true) : pop (s :: l) = (s.val, l) := by
  simp [pop, hs]

theorem pop_cons_of_not_linked {s : Slot α} (hs : s.linked = false) :
    pop (s :: l) = (none, s :: l) := by
  simp [pop, hs]

theorem pop_sublist : (pop l).2.Sublist l := by
  cases l with
  | nil => exact List.Sublist.refl _
  | cons s l =>
    cases hs : s.linked
    · simp [pop, hs]
    · simp [pop, hs]

/-- `Pop` takes a node exactly when it can reach one. -/
theorem visible_pop : visible (pop l).2 = visible l - 1 := by
  cases l with
  | nil => rfl
  | cons s l =>
    cases hs : s.linked <;> simp [pop, visible, hs]

/-- With no nil item queued, `Pop` returns nil only when it can reach no node. -/
theorem visible_eq_zero_of_pop (hn : none ∉ l.map Slot.val) (h : (pop l).1 = none) :
    visible l = 0 := by
  cases l with
  | nil => rfl
  | cons s l =>
    cases hs : s.linked with
    | false => simp [visible, hs]
    | true =>
      simp only [pop, hs, if_true] at h
      exact absurd (List.mem_map.mpr ⟨s, List.mem_cons_self, h⟩) hn

/-- A swap adds a node `Pop` cannot reach yet. -/
theorem visible_swap (ptr : ℕ) (x : Option α) : visible (swap l ptr x) = visible l := by
  induction l with
  | nil => rfl
  | cons s l ih =>
    show visible (s :: swap l ptr x) = visible (s :: l)
    simp only [visible, ih]

/-- A link can only let `Pop` reach further. -/
theorem visible_le_link (ptr : ℕ) : visible l ≤ visible (link l ptr) := by
  induction l with
  | nil => exact le_refl _
  | cons s l ih =>
    show visible (s :: l) ≤ visible (s.link ptr :: link l ptr)
    cases hs : s.linked with
    | false => simp [visible, hs]
    | true => simp [visible, hs, Slot.linked_link_of_linked hs, ih]

end Slots

/-! ### The two steps of `Push` on the heap -/

/-- `Push`'s swap: a new node with the item becomes the head; the old head is returned, for the
link. -/
def Queue.swap (q : Queue α) (x : Option α) : ℕ × Queue α :=
  (q.head, ⟨q.nodes ++ [⟨none, x⟩], q.nodes.length, q.tail⟩)

/-- `Push`'s link: the node `prev` links to the node `n`. -/
def Queue.link (q : Queue α) (prev n : ℕ) : Queue α :=
  ⟨q.nodes.modify prev fun node => { node with next := some n }, q.head, q.tail⟩

/-- `Push` is its swap, then its link. -/
theorem link_swap (q : Queue α) (x : Option α) :
    (q.swap x).2.link (q.swap x).1 q.nodes.length = q.push x :=
  rfl

/-- From node `t`, the nodes of the slots `l` follow one another, each linked from the one before
it exactly when its slot is, and the last links nowhere. -/
def Linked (nodes : List (Node α)) : ℕ → List (Slot α) → Prop
  | t, [] => nextOf nodes t = none
  | t, s :: l => nextOf nodes t = (if s.linked then some s.ptr else none) ∧ Linked nodes s.ptr l

/-- The push of the node `n` swapped out `prev`: `n` is a slot of `l`, not linked yet, and `prev`
is the node before it, `t` before the first. -/
def Pending : ℕ → List (Slot α) → ℕ → ℕ → Prop
  | _, [], _, _ => False
  | t, s :: l, prev, n => (prev = t ∧ n = s.ptr ∧ s.linked = false) ∨ Pending s.ptr l prev n

/-- The heap holds the slots `l` after its tail, the last one at its head. -/
structure Holds (q : Queue α) (l : List (Slot α)) : Prop where
  linked : Linked q.nodes q.tail l
  head : q.head = (l.getLast?.map Slot.ptr).getD q.tail
  vals : ∀ s ∈ l, valOf q.nodes s.ptr = s.val
  nodup : (q.tail :: l.map Slot.ptr).Nodup
  lt : ∀ p ∈ q.tail :: l.map Slot.ptr, p < q.nodes.length

section Linked

variable {nodes nodes' : List (Node α)}

/-- **Frame rule.** `Linked` reads only the `next` of `t` and of the slots' nodes. -/
theorem Linked.frame : ∀ {t : ℕ} {l : List (Slot α)}, Linked nodes t l →
    (∀ p ∈ t :: l.map Slot.ptr, nextOf nodes' p = nextOf nodes p) → Linked nodes' t l
  | t, [], h, hf => (hf t List.mem_cons_self).trans h
  | t, _ :: _, h, hf =>
    ⟨(hf t List.mem_cons_self).trans h.1, h.2.frame fun p hp => hf p (List.mem_cons_of_mem t hp)⟩

/-- A node swapped in after the last links nowhere, and nothing links to it yet. -/
theorem Linked.snoc {n : ℕ} {x : Option α} : ∀ {t : ℕ} {l : List (Slot α)}, Linked nodes t l →
    (∀ p ∈ t :: l.map Slot.ptr, nextOf nodes' p = nextOf nodes p) → nextOf nodes' n = none →
      Linked nodes' t (l ++ [⟨n, x, false⟩])
  | t, [], h, hf, hn => ⟨(hf t List.mem_cons_self).trans h, hn⟩
  | t, _ :: _, h, hf, hn =>
    ⟨(hf t List.mem_cons_self).trans h.1,
      h.2.snoc (fun p hp => hf p (List.mem_cons_of_mem t hp)) hn⟩

theorem Pending.mem : ∀ {t : ℕ} {l : List (Slot α)} {prev n : ℕ}, Pending t l prev n →
    prev ∈ t :: l.map Slot.ptr ∧ n ∈ l.map Slot.ptr
  | _, [], _, _, h => h.elim
  | t, s :: l, prev, n, h => by
    rcases h with ⟨rfl, rfl, -⟩ | h
    · exact ⟨List.mem_cons_self, List.mem_cons_self⟩
    · obtain ⟨hprev, hn⟩ := h.mem
      exact ⟨List.mem_cons_of_mem t hprev, List.mem_cons_of_mem _ hn⟩

/-- Slots swapped in later leave a push in progress pending. -/
theorem Pending.append {l' : List (Slot α)} : ∀ {t : ℕ} {l : List (Slot α)} {prev n : ℕ},
    Pending t l prev n → Pending t (l ++ l') prev n
  | _, [], _, _, h => h.elim
  | _, _ :: _, _, _, h => by
    rcases h with h | h
    · exact .inl h
    · exact .inr h.append

/-- The push that swapped in the last slot swapped out the node before it. -/
theorem pending_snoc (n : ℕ) (x : Option α) : ∀ (t : ℕ) (l : List (Slot α)),
    Pending t (l ++ [⟨n, x, false⟩]) ((l.getLast?.map Slot.ptr).getD t) n
  | t, [] => .inl ⟨rfl, rfl, rfl⟩
  | t, s :: l => by
    have hlast : (((s :: l).getLast?).map Slot.ptr).getD t = ((l.getLast?).map Slot.ptr).getD s.ptr := by
      rw [List.getLast?_cons]
      cases l.getLast? <;> rfl
    rw [hlast]
    exact .inr (pending_snoc n x s.ptr l)

/-- The link of another node leaves a push in progress pending. -/
theorem Pending.link {n' : ℕ} : ∀ {t : ℕ} {l : List (Slot α)} {prev n : ℕ},
    Pending t l prev n → n ≠ n' → Pending t (Slots.link l n') prev n
  | _, [], _, _, h, _ => h.elim
  | t, s :: l, prev, n, h, hne => by
    show (prev = t ∧ n = (s.link n').ptr ∧ (s.link n').linked = false) ∨
      Pending (s.link n').ptr (Slots.link l n') prev n
    rw [Slot.ptr_link]
    rcases h with ⟨hprev, rfl, hs⟩ | h
    · exact .inl ⟨hprev, rfl, by rw [Slot.link_of_ne hne]; exact hs⟩
    · exact .inr (h.link hne)

/-- The node of a push in progress is not linked, so `Pop` never takes it. -/
theorem Pending.pop {t : ℕ} {s : Slot α} {l : List (Slot α)} {prev n : ℕ}
    (h : Pending t (s :: l) prev n) (hs : s.linked = true) : Pending s.ptr l prev n := by
  rcases h with ⟨-, -, hs'⟩ | h
  · rw [hs] at hs'
    cases hs'
  · exact h

end Linked

/-- `next` of the node `prev` set to `n`, as the link does. -/
theorem nextOf_link_self (q : Queue α) {prev : ℕ} (n : ℕ) (hp : prev < q.nodes.length) :
    nextOf (q.link prev n).nodes prev = some n := by
  simp [Queue.link, nextOf, List.getElem?_eq_getElem hp]

theorem valOf_link (q : Queue α) (prev n p : ℕ) :
    valOf (q.link prev n).nodes p = valOf q.nodes p := by
  simp only [Queue.link, valOf, List.getElem?_modify]
  cases q.nodes[p]? <;> simp
  split_ifs <;> rfl

theorem length_link (q : Queue α) (prev n : ℕ) :
    (q.link prev n).nodes.length = q.nodes.length :=
  List.length_modify _ _ _

theorem nextOf_link_of_ne (q : Queue α) {prev p : ℕ} (n : ℕ) (hp : p ≠ prev) :
    nextOf (q.link prev n).nodes p = nextOf q.nodes p := by
  simp [Queue.link, nextOf, Ne.symm hp]

/-- The link sets the `next` that its slot's `Linked` asks for, and no other. -/
theorem Linked.link (q : Queue α) {n : ℕ} : ∀ {t prev : ℕ} {l : List (Slot α)},
    Linked q.nodes t l → Pending t l prev n → (t :: l.map Slot.ptr).Nodup →
      (∀ p ∈ t :: l.map Slot.ptr, p < q.nodes.length) →
      Linked (q.link prev n).nodes t (Slots.link l n)
  | _, _, [], _, hp, _, _ => hp.elim
  | t, prev, s :: l, h, hp, hnd, hlt => by
    have hnd' := List.nodup_cons.mp hnd
    show nextOf _ t = (if (s.link n).linked then some (s.link n).ptr else none) ∧
      Linked _ (s.link n).ptr (Slots.link l n)
    rw [Slot.ptr_link]
    rcases hp with ⟨rfl, rfl, -⟩ | hp
    · -- this slot is the one linked: `t` now links to it, and nothing after it changes
      have hrest : Slots.link l s.ptr = l :=
        Slots.link_of_not_mem l (List.nodup_cons.mp hnd'.2).1
      have hself : (s.link s.ptr).linked = true := by simp [Slot.link]
      rw [hrest, hself, if_pos rfl, nextOf_link_self q _ (hlt prev List.mem_cons_self)]
      refine ⟨rfl, h.2.frame fun p hp => nextOf_link_of_ne q _ ?_⟩
      rintro rfl
      exact hnd'.1 hp
    · -- the slot linked comes later, after `t`
      obtain ⟨hprev, hn⟩ := hp.mem
      have htp : t ≠ prev := fun htp => hnd'.1 (htp ▸ hprev)
      have hsn : s.ptr ≠ n := fun hsn => (List.nodup_cons.mp hnd'.2).1 (hsn ▸ hn)
      rw [Slot.link_of_ne hsn, nextOf_link_of_ne q _ htp]
      exact ⟨h.1, h.2.link q hp hnd'.2 fun p hp' => hlt p (List.mem_cons_of_mem t hp')⟩

section Holds

variable {q : Queue α} {l : List (Slot α)}

theorem holds_new : Holds (new : Queue α) [] :=
  ⟨rfl, rfl, fun _ h => absurd h List.not_mem_nil, List.nodup_singleton 0, by simp [new]⟩

theorem nextOf_swap_of_lt {p : ℕ} (x : Option α) (hp : p < q.nodes.length) :
    nextOf (q.swap x).2.nodes p = nextOf q.nodes p := by
  simp [Queue.swap, nextOf, List.getElem?_append_left hp]

theorem valOf_swap_of_lt {p : ℕ} (x : Option α) (hp : p < q.nodes.length) :
    valOf (q.swap x).2.nodes p = valOf q.nodes p := by
  simp [Queue.swap, valOf, List.getElem?_append_left hp]

/-- The swap adds its node, not linked yet, after the last slot. -/
theorem Holds.swap (h : Holds q l) (x : Option α) :
    Holds (q.swap x).2 (Slots.swap l q.nodes.length x) := by
  have hfresh : q.nodes.length ∉ q.tail :: l.map Slot.ptr :=
    fun hmem => Nat.lt_irrefl _ (h.lt _ hmem)
  refine ⟨?_, ?_, fun s hs => ?_, ?_, fun p hp => ?_⟩
  · exact h.linked.snoc (fun p hp => nextOf_swap_of_lt x (h.lt p hp))
      (by simp [Queue.swap, nextOf])
  · simp [Queue.swap, Slots.swap]
  · rcases List.mem_append.mp hs with hs | hs
    · rw [valOf_swap_of_lt x (h.lt s.ptr (List.mem_cons_of_mem _ (List.mem_map_of_mem hs)))]
      exact h.vals s hs
    · rw [List.mem_singleton.mp hs]
      simp [Queue.swap, valOf]
  · show (q.tail :: (Slots.swap l q.nodes.length x).map Slot.ptr).Nodup
    rw [Slots.swap, List.map_append, ← List.cons_append, List.nodup_append]
    refine ⟨h.nodup, List.nodup_singleton _, fun a ha b hb hab => hfresh ?_⟩
    rw [List.map_singleton, List.mem_singleton] at hb
    rw [hab, hb] at ha
    exact ha
  · show p < (q.nodes ++ _).length
    rw [List.length_append, List.length_singleton]
    simp only [Slots.swap, List.map_append, List.map_singleton, ← List.cons_append,
      List.mem_append, List.mem_singleton] at hp
    rcases hp with hp | rfl
    · exact Nat.lt_succ_of_lt (h.lt p hp)
    · exact Nat.lt_succ_self _

/-- The link of a pending push links its slot. -/
theorem Holds.link (h : Holds q l) {prev n : ℕ} (hp : Pending q.tail l prev n) :
    Holds (q.link prev n) (Slots.link l n) := by
  refine ⟨h.linked.link q hp h.nodup h.lt, ?_, fun s hs => ?_, ?_, ?_⟩
  · show q.head = _
    rw [h.head, Slots.link, List.getLast?_map, Option.map_map]
    congr 1
    cases l.getLast? <;> simp
  · obtain ⟨s', hs', rfl⟩ := List.mem_map.mp hs
    rw [Slot.val_link, Slot.ptr_link, valOf_link]
    exact h.vals s' hs'
  · rw [Slots.map_ptr_link]
    exact h.nodup
  · intro p hp
    rw [Slots.map_ptr_link] at hp
    rw [length_link]
    exact h.lt p hp

/-- `Pop` takes the first slot when it is linked, and nothing otherwise. -/
theorem Holds.pop (h : Holds q l) : q.pop.1 = (Slots.pop l).1 ∧ Holds q.pop.2 (Slots.pop l).2 := by
  cases l with
  | nil =>
    rw [pop_of_nextOf_none q h.linked]
    exact ⟨rfl, h⟩
  | cons s l =>
    have hnext := h.linked.1
    cases hs : s.linked with
    | false =>
      rw [hs, if_neg Bool.false_ne_true] at hnext
      rw [pop_of_nextOf_none q hnext, Slots.pop_cons_of_not_linked l hs]
      exact ⟨rfl, h⟩
    | true =>
      -- the first slot's node becomes the stub
      rw [hs, if_pos rfl] at hnext
      rw [pop_of_nextOf q hnext, Slots.pop_cons_of_linked l hs]
      have hnd := List.nodup_cons.mp h.nodup
      have hnd' := List.nodup_cons.mp hnd.2
      refine ⟨h.vals s List.mem_cons_self, ?_, ?_, fun r hr => ?_, hnd.2, fun p hp => ?_⟩
      · exact h.linked.2.frame fun p _ => nextOf_clear q s.ptr p
      · show q.head = _
        rw [h.head, List.getLast?_cons]
        cases l.getLast? <;> rfl
      · have hrs : r.ptr ≠ s.ptr := fun hrs => hnd'.1 (hrs ▸ List.mem_map_of_mem hr)
        rw [valOf_clear_of_ne q hrs]
        exact h.vals r (List.mem_cons_of_mem s hr)
      · rw [List.length_modify]
        exact h.lt p (List.mem_cons_of_mem _ hp)

end Holds

/-! ### Concurrent producers -/

section Shared

open ProtoActor.Transition

/-- A call on the queue: a producer's swap, the link of the `i`-th push in progress, or `Pop`. -/
inductive Call (α : Type)
  | swap (x : Option α)
  | link (i : ℕ)
  | pop

/-- The heap, with each push in progress: the old head it swapped out, and its node. -/
structure Shared (α : Type) where
  queue : Queue α
  pending : List (ℕ × ℕ)

/-- A call on the heap, with what `Pop` returns. -/
def Shared.call (s : Shared α) : Call α → Option (Option α) × Shared α
  | .swap x =>
    (none, ⟨(s.queue.swap x).2, s.pending ++ [((s.queue.swap x).1, s.queue.nodes.length)]⟩)
  | .link i =>
    match s.pending[i]? with
    | some (prev, n) => (none, ⟨s.queue.link prev n, s.pending.eraseIdx i⟩)
    | none => (none, s)
  | .pop => (some s.queue.pop.1, ⟨s.queue.pop.2, s.pending⟩)

/-- The slots, with the pointer the next swap takes and the node of each push in progress. -/
structure SlotQueue (α : Type) where
  slots : List (Slot α)
  next : ℕ
  pending : List ℕ

/-- A call on the slots, with what `Pop` returns. -/
def SlotQueue.call (s : SlotQueue α) : Call α → Option (Option α) × SlotQueue α
  | .swap x => (none, ⟨Slots.swap s.slots s.next x, s.next + 1, s.pending ++ [s.next]⟩)
  | .link i =>
    match s.pending[i]? with
    | some n => (none, ⟨Slots.link s.slots n, s.next, s.pending.eraseIdx i⟩)
    | none => (none, s)
  | .pop => (some (Slots.pop s.slots).1, ⟨(Slots.pop s.slots).2, s.next, s.pending⟩)

/-- The heap and its pushes in progress hold the slots and theirs. -/
structure Shared.Refines (s : Shared α) (t : SlotQueue α) : Prop where
  holds : Holds s.queue t.slots
  next : t.next = s.queue.nodes.length
  pending : s.pending.map Prod.snd = t.pending
  prev : ∀ e ∈ s.pending, Pending s.queue.tail t.slots e.1 e.2
  nodup : t.pending.Nodup

theorem shared_refines_new : (⟨new, []⟩ : Shared α).Refines ⟨[], 1, []⟩ :=
  ⟨holds_new, rfl, rfl, fun _ h => absurd h List.not_mem_nil, List.nodup_nil⟩

variable {s : Shared α} {t : SlotQueue α}

theorem Shared.Refines.swap (h : s.Refines t) (x : Option α) :
    (s.call (.swap x)).2.Refines (t.call (.swap x)).2 := by
  have hfresh : s.queue.nodes.length ∉ t.pending := by
    intro hmem
    rw [← h.pending] at hmem
    obtain ⟨e, he, hen⟩ := List.mem_map.mp hmem
    have hn := (h.prev e he).mem.2
    rw [hen] at hn
    exact Nat.lt_irrefl _ (h.holds.lt _ (List.mem_cons_of_mem _ hn))
  refine ⟨?_, ?_, ?_, fun e he => ?_, ?_⟩
  · show Holds (s.queue.swap x).2 (Slots.swap t.slots t.next x)
    rw [h.next]
    exact h.holds.swap x
  · show t.next + 1 = (s.queue.nodes ++ _).length
    rw [h.next, List.length_append, List.length_singleton]
  · show (s.pending ++ _).map Prod.snd = t.pending ++ [t.next]
    rw [List.map_append, h.pending, h.next]
    rfl
  · show Pending s.queue.tail (Slots.swap t.slots t.next x) e.1 e.2
    rw [h.next]
    rcases List.mem_append.mp he with he | he
    · exact (h.prev e he).append
    · -- the new push swapped out the old head, the node before its own
      rw [List.mem_singleton.mp he]
      show Pending s.queue.tail (Slots.swap t.slots _ x) s.queue.head s.queue.nodes.length
      rw [h.holds.head]
      exact pending_snoc _ x _ _
  · show (t.pending ++ [t.next]).Nodup
    rw [h.next, List.nodup_append]
    refine ⟨h.nodup, List.nodup_singleton _, fun a ha b hb hab => hfresh ?_⟩
    rw [List.mem_singleton] at hb
    rw [hab, hb] at ha
    exact ha

theorem Shared.Refines.link (h : s.Refines t) (i : ℕ) :
    (s.call (.link i)).2.Refines (t.call (.link i)).2 := by
  have hi : t.pending[i]? = s.pending[i]?.map Prod.snd := by
    rw [← h.pending, List.getElem?_map]
  simp only [Shared.call, SlotQueue.call, hi]
  rcases he : s.pending[i]? with _ | ⟨prev, n⟩
  · exact h
  · have hmem : (prev, n) ∈ s.pending := List.mem_of_getElem? he
    -- every other push in progress is of another node
    have hother : ∀ e ∈ s.pending.eraseIdx i, e.2 ≠ n := by
      intro e he' hen
      obtain ⟨j, hji, hj⟩ := List.mem_eraseIdx_iff_getElem?.mp he'
      have hj' : (s.pending.map Prod.snd)[j]? = some n := by
        rw [List.getElem?_map, hj]
        exact congrArg some hen
      have hi' : (s.pending.map Prod.snd)[i]? = some n := by rw [List.getElem?_map, he]; rfl
      rw [h.pending] at hj' hi'
      obtain ⟨hjlt, hjn⟩ := List.getElem?_eq_some_iff.mp hj'
      obtain ⟨hilt, hin⟩ := List.getElem?_eq_some_iff.mp hi'
      exact hji ((h.nodup.getElem_inj_iff).mp (hjn.trans hin.symm))
    show Shared.Refines ⟨s.queue.link prev n, s.pending.eraseIdx i⟩
      ⟨Slots.link t.slots n, t.next, t.pending.eraseIdx i⟩
    refine ⟨h.holds.link (h.prev _ hmem), h.next.trans (length_link _ _ _).symm, ?_,
      fun e he' => ?_, ?_⟩
    · show (s.pending.eraseIdx i).map Prod.snd = t.pending.eraseIdx i
      rw [← List.eraseIdx_map, h.pending]
    · exact (h.prev e ((List.eraseIdx_sublist _ i).subset he')).link (hother e he')
    · exact h.nodup.sublist (List.eraseIdx_sublist _ i)

theorem Shared.Refines.pop (h : s.Refines t) :
    (s.call .pop).1 = (t.call .pop).1 ∧ (s.call .pop).2.Refines (t.call .pop).2 := by
  obtain ⟨hval, hholds⟩ := h.holds.pop
  refine ⟨congrArg some hval, hholds, ?_, h.pending, fun e he => ?_, h.nodup⟩
  · show t.next = s.queue.pop.2.nodes.length
    rw [h.next]
    unfold Queue.pop
    split <;> simp
  · -- a pending slot is not linked, so it is not the one taken
    have hp := h.prev e he
    show Pending s.queue.pop.2.tail (Slots.pop t.slots).2 e.1 e.2
    rcases hl : t.slots with _ | ⟨r, l⟩
    · rw [hl] at hp
      exact hp.elim
    · rw [hl] at hp hholds hval
      have hnext := h.holds.linked
      rw [hl] at hnext
      cases hr : r.linked with
      | false =>
        rw [pop_of_nextOf_none s.queue (by simpa [hr] using hnext.1)]
        simpa [Slots.pop, hr] using hp
      | true =>
        rw [pop_of_nextOf s.queue (by simpa [hr] using hnext.1)]
        simpa [Slots.pop, hr] using hp.pop hr

/-- One call answers alike on the heap and on the slots, and keeps them related. -/
theorem Shared.Refines.call (h : s.Refines t) (c : Call α) :
    (s.call c).1 = (t.call c).1 ∧ (s.call c).2.Refines (t.call c).2 := by
  cases c with
  | swap x => exact ⟨rfl, h.swap x⟩
  | link i =>
    refine ⟨?_, h.link i⟩
    simp only [Shared.call, SlotQueue.call]
    split <;> split <;> rfl
  | pop => exact h.pop

/-- **The heap refines the slots.** Under any interleaving of swaps, links and pops, the mpsc
queue answers every `Pop` as the slots do. -/
theorem mpsc_refines_slots (calls : List (Call α)) :
    outputs Shared.call ⟨new, []⟩ calls = outputs SlotQueue.call ⟨[], 1, []⟩ calls :=
  (outputs_eq_of_simulation Shared.Refines (fun _ _ c h => h.call c) calls shared_refines_new).1

/-- **The mpsc queue.** Called one call after another, a new queue answers every sequence of
`Push` and `Pop` as the FIFO list of its items does, with `nil` for the `Pop` of an empty queue;
`Push` is its swap followed by its link; and under any interleaving of swaps, links and pops, the
heap answers every `Pop` as the slots do. -/
theorem mpsc_queue_refines (cs : List (QueueCall (Option α))) (calls : List (Call α)) :
    outputs impl.call (new : Queue α) cs = outputs (QueueImpl.fifo none).call [] cs ∧
      (∀ (q : Queue α) x, (q.swap x).2.link (q.swap x).1 q.nodes.length = q.push x) ∧
      outputs Shared.call ⟨new, []⟩ calls = outputs SlotQueue.call ⟨[], 1, []⟩ calls :=
  ⟨mpsc_refines_fifo.outputs refines_new cs, link_swap, mpsc_refines_slots calls⟩

end Shared

end ProtoActor.Collections.Mpsc
