import Mathlib.Data.List.MinMax
import ProtoActor.Transition.Run

/-!
# Queues that refine a FIFO list

A queue with `Push` and `Pop`, where `Pop` returns a default value `nil` when the queue is empty,
as a queue of `interface{}` values returns `nil`.  `QueueImpl.Refines impl nil R` says that the
relation `R` ties each state to the items it holds, first to pop first: `Push` appends, `Pop` of
a nonempty queue returns and removes the first item, and `Pop` of an empty queue returns `nil`
and leaves it empty.  `fifo` is the FIFO list itself, the queue the others answer as.

`Refines.pop` is the rule for one `Pop` whatever the items, `Refines.outputs` the rule for a whole
run: every sequence of calls answers as the list does.  Since an item may itself be `nil`, a
caller that reads `nil` as "empty" cannot tell the two apart.

The priority FIFO (`priorityFifo`) is what a queue of queues, one per level, is for: each item
has a level in a linear order, and `Pop` takes the earliest item of the highest level that holds one
(`priorityPop_eq_some`), or `nil` when there is none (`priorityPop_eq_none_iff`).  `byLevel`
splits the items by level, and `byLevel_eraseP_self`, `byLevel_eraseP_of_ne` say what taking
the first item of one level does to each level.

Nothing here names the repository.
-/

namespace ProtoActor.Collections

open ProtoActor.Transition

variable {Q β : Type}

/-- The two operations of a queue. -/
structure QueueImpl (Q β : Type) where
  push : Q → β → Q
  pop : Q → β × Q

/-- A call on a queue. -/
inductive QueueCall (β : Type)
  | push (item : β)
  | pop
  deriving DecidableEq, Repr

namespace QueueImpl

/-- One call, with what it returns: nothing for a push, the value read for a pop. -/
def call (impl : QueueImpl Q β) (q : Q) : QueueCall β → Option β × Q
  | .push x => (none, impl.push q x)
  | .pop => (some (impl.pop q).1, (impl.pop q).2)

/-- The FIFO list, whose `Pop` of the empty list returns `nil`. -/
def fifo (nil : β) : QueueImpl (List β) β where
  push l x := l ++ [x]
  pop l := (l.headD nil, l.tail)

/-- `R q l`: the queue `q` holds the items `l`, first to pop first. -/
structure Refines (impl : QueueImpl Q β) (nil : β) (R : Q → List β → Prop) : Prop where
  push : ∀ {q l} (x : β), R q l → R (impl.push q x) (l ++ [x])
  pop_nil : ∀ {q}, R q [] → (impl.pop q).1 = nil ∧ R (impl.pop q).2 []
  pop_cons : ∀ {q x l}, R q (x :: l) → (impl.pop q).1 = x ∧ R (impl.pop q).2 l

section

variable {impl : QueueImpl Q β} {nil : β} {R : Q → List β → Prop}

/-- **`Pop`.** The first item, or `nil`, and the rest. -/
theorem Refines.pop (h : impl.Refines nil R) {q : Q} {l : List β} (hq : R q l) :
    (impl.pop q).1 = l.headD nil ∧ R (impl.pop q).2 l.tail := by
  cases l with
  | nil => exact h.pop_nil hq
  | cons x l => exact h.pop_cons hq

theorem Refines.call (h : impl.Refines nil R) {q : Q} {l : List β} (hq : R q l) (c : QueueCall β) :
    (impl.call q c).1 = ((fifo nil).call l c).1 ∧ R (impl.call q c).2 ((fifo nil).call l c).2 := by
  cases c with
  | push x => exact ⟨rfl, h.push x hq⟩
  | pop =>
    obtain ⟨hx, hrest⟩ := h.pop hq
    exact ⟨by rw [QueueImpl.call, QueueImpl.call, hx]; rfl, hrest⟩

/-- **Runs.** From a state holding `l`, every sequence of calls answers as the list `l` does. -/
theorem Refines.outputs (h : impl.Refines nil R) {q : Q} {l : List β} (hq : R q l)
    (cs : List (QueueCall β)) :
    Transition.outputs impl.call q cs = Transition.outputs (fifo nil).call l cs :=
  (outputs_eq_of_simulation R (fun _ _ c hq => h.call hq c) cs hq).1

end

end QueueImpl

/-! ### The priority FIFO -/

section Priority

variable {γ : Type} [LinearOrder γ] (level : β → γ)

/-- The items of level `p`, in order. -/
def byLevel (l : List β) (p : γ) : List β :=
  l.filter fun x => level x == p

/-- What `Pop` of a priority FIFO returns and leaves: the earliest item of the highest level
that holds one, or nothing. -/
def priorityPop (l : List β) : Option β × List β :=
  match (l.map level).max? with
  | none => (none, l)
  | some m => (l.find? (level · == m), l.eraseP (level · == m))

/-- The priority FIFO, whose `Pop` of the empty list returns `nil`. -/
def priorityFifo (nil : β) : QueueImpl (List β) β where
  push l x := l ++ [x]
  pop l := ((priorityPop level l).1.getD nil, (priorityPop level l).2)

variable {level}

theorem priorityPop_of_max {l : List β} {m : γ} (hm : (l.map level).max? = some m) :
    priorityPop level l = (l.find? (level · == m), l.eraseP (level · == m)) := by
  rw [priorityPop, hm]

/-- `Pop` returns nothing exactly when no item remains. -/
theorem priorityPop_eq_none_iff {l : List β} : (priorityPop level l).1 = none ↔ l = [] := by
  constructor
  · intro h
    cases hm : (l.map level).max? with
    | none => exact List.map_eq_nil_iff.mp (List.max?_eq_none_iff.mp hm)
    | some m =>
      -- the highest level is the level of some item, which `find?` finds
      rw [priorityPop_of_max hm, List.find?_eq_none] at h
      obtain ⟨x, hx, hlevel⟩ := List.mem_map.mp (List.max?_mem hm)
      exact absurd (beq_iff_eq.mpr hlevel) (h x hx)
  · rintro rfl
    rfl

/-- **The item `Pop` returns** is the earliest of the highest level: every item has a level at
most its level, every item before it a lower one, and it alone is taken out. -/
theorem priorityPop_eq_some {l rest : List β} {x : β} (h : priorityPop level l = (some x, rest)) :
    ∃ pre post, l = pre ++ x :: post ∧ (∀ y ∈ l, level y ≤ level x) ∧
      (∀ y ∈ pre, level y < level x) ∧ rest = pre ++ post := by
  cases hm : (l.map level).max? with
  | none => rw [priorityPop, hm] at h; cases h
  | some m =>
    rw [priorityPop_of_max hm, Prod.mk.injEq] at h
    obtain ⟨hfind, hrest⟩ := h
    obtain ⟨hx, pre, post, rfl, hpre⟩ := List.find?_eq_some_iff_append.mp hfind
    have hxm : level x = m := beq_iff_eq.mp hx
    have hle : ∀ y ∈ pre ++ x :: post, level y ≤ m :=
      fun y hy => (List.max?_eq_some_iff.mp hm).2 (level y) (List.mem_map_of_mem hy)
    refine ⟨pre, post, rfl, fun y hy => hxm ▸ hle y hy, fun y hy => ?_, ?_⟩
    · -- an earlier item is not of the highest level, and no higher
      have hne : level y ≠ m := fun hym => by simpa [hym] using hpre y hy
      exact hxm ▸ lt_of_le_of_ne (hle y (List.mem_append_left _ hy)) hne
    · rw [← hrest, List.eraseP_append_right _ fun y hy => by simpa using hpre y hy,
        List.eraseP_cons_of_pos (p := fun y => level y == m) hx]

/-- Taking the first item of level `p` takes the first item of `byLevel l p`. -/
theorem byLevel_eraseP_self (l : List β) (p : γ) :
    byLevel level (l.eraseP (level · == p)) p = (byLevel level l p).tail := by
  induction l with
  | nil => rfl
  | cons x l ih =>
    by_cases hx : (level x == p) = true
    · unfold byLevel
      rw [List.eraseP_cons_of_pos (p := fun y => level y == p) hx,
        List.filter_cons_of_pos (p := fun y => level y == p) hx, List.tail_cons]
    · unfold byLevel at ih ⊢
      rw [List.eraseP_cons_of_neg (p := fun y => level y == p) hx,
        List.filter_cons_of_neg (p := fun y => level y == p) hx,
        List.filter_cons_of_neg (p := fun y => level y == p) hx]
      exact ih

/-- Taking the first item of level `p` leaves the other levels. -/
theorem byLevel_eraseP_of_ne (l : List β) {p q : γ} (hqp : q ≠ p) :
    byLevel level (l.eraseP (level · == p)) q = byLevel level l q := by
  induction l with
  | nil => rfl
  | cons x l ih =>
    by_cases hx : (level x == p) = true
    · have hxq : ¬(level x == q) = true := by
        rw [beq_iff_eq] at hx ⊢
        rw [hx]
        exact Ne.symm hqp
      unfold byLevel
      rw [List.eraseP_cons_of_pos (p := fun y => level y == p) hx,
        List.filter_cons_of_neg (p := fun y => level y == q) hxq]
    · unfold byLevel at ih ⊢
      rw [List.eraseP_cons_of_neg (p := fun y => level y == p) hx, List.filter_cons,
        List.filter_cons, ih]

theorem byLevel_append_singleton (l : List β) (x : β) (p : γ) :
    byLevel level (l ++ [x]) p = byLevel level l p ++ (if level x = p then [x] else []) := by
  unfold byLevel
  rw [List.filter_append, List.filter_singleton]
  by_cases hx : level x = p
  · simp [hx]
  · simp [beq_false_of_ne hx, hx]

end Priority

end ProtoActor.Collections
