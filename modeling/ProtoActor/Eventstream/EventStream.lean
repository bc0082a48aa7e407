import Mathlib.Data.Finset.Card
import ProtoActor.Collections.SwapRemove
import ProtoActor.Transition.Run

/-!
# The event stream

`eventstream/eventstream.go`.  An `EventStream` keeps its subscriptions in a slice, each one
knowing its index (`id`), and a counter of them.  `Subscribe` appends a new active subscription
at index `counter`; `SubscribeWithPredicate` then sets its predicate.  `Unsubscribe` deactivates
an active subscription, moves the last subscription into its slot and gives it the freed index,
and shortens the slice.  `Publish` calls the handler of every active subscription whose predicate
is absent or accepts the event.

A `*Subscription` is a pointer: the model keeps every subscription the stream has handed out in
`heap`, and a pointer is its index there; a pointer out of the heap stands for `nil`.  The stream
is used from one goroutine at a time here, so the locks and the atomic flag are plain steps.
`Unsubscribe` indexes the slice with the subscription's `id` and with `counter - 1`; where that is
out of range Go panics, and the model returns `none`.

* `Valid`: the counter is the length of the slice, the subscription in slot `i` has index `i`,
  and the active subscriptions are exactly those in the slice.  `Valid.unsubscribe` follows the
  move of the last subscription (`Collections.mem_set_dropLast`).
* `eventStream_subscriptions`: after every sequence of calls the stream has not panicked, is
  `Valid`, holds exactly the subscriptions subscribed and not unsubscribed since (`liveAfter`),
  each with the handler it was given, and `Publish` calls each of those whose given predicate is
  absent or accepts the event exactly once (`givenAccepts`).  What the calls gave is read off the
  calls (`givenAfter`), not off the stream.
-/

namespace ProtoActor.Eventstream

open ProtoActor.Transition ProtoActor.Collections

variable {η ε : Type}

/-- `Subscription`: its index in the slice, its handler, its predicate (`nil` is `none`), and its
`active` flag. -/
structure Subscription (η ε : Type) where
  id : ℕ
  handler : η
  p : Option (ε → Bool)
  active : Bool

/-- Whether `Publish` calls the handler for the event: no predicate, or one that holds. -/
def Subscription.accepts (sub : Subscription η ε) (evt : ε) : Bool :=
  match sub.p with
  | none => true
  | some p => p evt

/-- `EventStream`, with the subscriptions it has handed out, by pointer. -/
structure EventStream (η ε : Type) where
  subscriptions : List ℕ
  counter : ℕ
  heap : List (Subscription η ε)

namespace EventStream

/-- `NewEventStream`. -/
def new : EventStream η ε :=
  ⟨[], 0, []⟩

/-- `Subscribe`: a new active subscription at index `counter`; its pointer is returned. -/
def subscribe (es : EventStream η ε) (handler : η) : EventStream η ε × ℕ :=
  (⟨es.subscriptions ++ [es.heap.length], es.counter + 1,
    es.heap ++ [⟨es.counter, handler, none, true⟩]⟩, es.heap.length)

/-- `SubscribeWithPredicate`: `Subscribe`, then the predicate is set on the subscription. -/
def subscribeWithPredicate (es : EventStream η ε) (handler : η) (p : ε → Bool) :
    EventStream η ε × ℕ :=
  let (es, sub) := es.subscribe handler
  ({ es with heap := es.heap.modify sub fun s => { s with p := some p } }, sub)

/-- `Unsubscribe`. -/
def unsubscribe (es : EventStream η ε) (sub : ℕ) : Option (EventStream η ε) :=
  match es.heap[sub]? with
  | none => some es
  | some s =>
    if s.active then
      -- `Deactivate` swaps the flag from 1 to 0
      let heap := es.heap.set sub { s with active := false }
      if es.counter = 0 then some ⟨[], es.counter, heap⟩
      else
        let l := es.counter - 1
        match es.subscriptions[l]? with
        | none => none
        | some moved =>
          if s.id < es.subscriptions.length then
            -- the last subscription moves into the freed slot and takes its index
            let heap := heap.modify moved fun m => { m with id := s.id }
            let counter := es.counter - 1
            some ⟨if counter = 0 then [] else (es.subscriptions.set s.id moved).take l, counter, heap⟩
          else none
    else some es

/-- Whether the subscription at a pointer accepts the event. -/
def acceptsAt (es : EventStream η ε) (sub : ℕ) (evt : ε) : Bool :=
  (es.heap[sub]?.map (·.accepts evt)).getD false

/-- `Publish`: the pointers of the subscriptions whose handler it calls, in order: the active
subscriptions of the slice, and of those the ones that accept the event. -/
def publish (es : EventStream η ε) (evt : ε) : List ℕ :=
  let subs := es.subscriptions.filter fun sub => (es.heap[sub]?.map Subscription.active).getD false
  subs.filter fun sub => es.acceptsAt sub evt

end EventStream

/-- A call on the stream.  `unsubscribe n` passes the pointer `n`, the `n`-th subscription handed
out, or `nil` if there is none yet. -/
inductive EventStreamOp (η ε : Type)
  | subscribe (handler : η)
  | subscribeWithPredicate (handler : η) (p : ε → Bool)
  | unsubscribe (sub : ℕ)

namespace EventStream

/-- One call; `none` if it panics. -/
def applyOp (es : EventStream η ε) : EventStreamOp η ε → Option (EventStream η ε)
  | .subscribe handler => some (es.subscribe handler).1
  | .subscribeWithPredicate handler p => some (es.subscribeWithPredicate handler p).1
  | .unsubscribe sub => es.unsubscribe sub

/-- The stream after the calls, from `NewEventStream`; `none` if one of them panics. -/
def run (ops : List (EventStreamOp η ε)) : Option (EventStream η ε) :=
  replay applyOp new ops

/-! ### What the stream should hold -/

/-- The handler and the predicate given with each subscription handed out, by pointer (no
predicate for `Subscribe`), and the pointers of those not unsubscribed since. -/
def liveStep (acc : List (η × Option (ε → Bool)) × Finset ℕ) :
    EventStreamOp η ε → List (η × Option (ε → Bool)) × Finset ℕ
  | .subscribe handler => (acc.1 ++ [(handler, none)], insert acc.1.length acc.2)
  | .subscribeWithPredicate handler p => (acc.1 ++ [(handler, some p)], insert acc.1.length acc.2)
  | .unsubscribe sub => (acc.1, acc.2.erase sub)

/-- Whether `Publish` should call the subscription at a pointer for the event: it was given no
predicate, or one that accepts the event. -/
def givenAccepts (given : List (η × Option (ε → Bool))) (sub : ℕ) (evt : ε) : Bool :=
  match given[sub]? with
  | some (_, some p) => p evt
  | _ => true

/-! ### The invariant -/

/-- The counter is the length of the slice, the subscription in slot `i` has index `i`, and the
active subscriptions are the ones in the slice. -/
structure Valid (es : EventStream η ε) : Prop where
  counter_eq : es.counter = es.subscriptions.length
  ids : ∀ i sub, es.subscriptions[i]? = some sub → (es.heap[sub]?).map Subscription.id = some i
  active_iff : ∀ sub, (es.heap[sub]?).map Subscription.active = some true ↔ sub ∈ es.subscriptions

/-- The subscriptions handed out carry the handlers and predicates given, and those in the slice
are the live ones. -/
structure Abstracts (es : EventStream η ε) (acc : List (η × Option (ε → Bool)) × Finset ℕ) :
    Prop where
  given : es.heap.map (fun s => (s.handler, s.p)) = acc.1
  mem_iff : ∀ sub, sub ∈ es.subscriptions ↔ sub ∈ acc.2

section Valid

variable {es : EventStream η ε}

theorem Valid.lt_length (h : es.Valid) {sub : ℕ} (hsub : sub ∈ es.subscriptions) :
    sub < es.heap.length := by
  have hactive := (h.active_iff sub).mpr hsub
  obtain ⟨s, hs, -⟩ := Option.map_eq_some_iff.mp hactive
  exact (List.getElem?_eq_some_iff.mp hs).1

theorem Valid.nodup (h : es.Valid) : es.subscriptions.Nodup := by
  rw [List.nodup_iff_getElem?_ne_getElem?]
  intro i j hij hj heq
  obtain ⟨sub, hsub⟩ : ∃ sub, es.subscriptions[j]? = some sub := ⟨_, List.getElem?_eq_getElem hj⟩
  have hi := h.ids i sub (heq.trans hsub)
  rw [h.ids j sub hsub, Option.some_inj] at hi
  omega

end Valid

theorem Valid.subscribe {es : EventStream η ε} (h : es.Valid) (handler : η) :
    (es.subscribe handler).1.Valid where
  counter_eq := by simp [EventStream.subscribe, h.counter_eq]
  ids := by
    intro i sub hsub
    simp only [EventStream.subscribe, List.getElem?_append] at hsub ⊢
    split_ifs at hsub with hi
    · -- an old slot: its pointer is an old one
      have hlt := h.lt_length (List.mem_of_getElem? hsub)
      rw [if_pos hlt]
      exact h.ids i sub hsub
    · -- the new slot holds the new pointer, whose index is the old counter
      rw [List.getElem?_singleton] at hsub
      split_ifs at hsub with h0
      cases hsub
      simp [h.counter_eq]
      omega
  active_iff := by
    intro sub
    simp only [EventStream.subscribe, List.getElem?_append, List.mem_append, List.mem_singleton]
    by_cases hlt : sub < es.heap.length
    · rw [if_pos hlt, h.active_iff]
      simp [Nat.ne_of_lt hlt]
    · rw [if_neg hlt, List.getElem?_singleton]
      have hnot : sub ∉ es.subscriptions := fun hsub => hlt (h.lt_length hsub)
      by_cases heq : sub = es.heap.length
      · subst heq
        simp
      · have hne : sub - es.heap.length ≠ 0 := by omega
        simp [hne, hnot, heq]

/-- Setting the predicate changes neither the index nor the flag of any subscription. -/
theorem Valid.subscribeWithPredicate {es : EventStream η ε} (h : es.Valid) (handler : η)
    (p : ε → Bool) : (es.subscribeWithPredicate handler p).1.Valid := by
  have h' := h.subscribe handler
  have hmap : ∀ {β : Type} (f : Subscription η ε → β), (∀ s : Subscription η ε, f { s with p := some p } = f s) →
      ∀ sub : ℕ, ((es.subscribe handler).1.heap.modify (es.subscribe handler).2
        (fun s => { s with p := some p }))[sub]?.map f = (es.subscribe handler).1.heap[sub]?.map f := by
    intro β f hf sub
    rw [List.getElem?_modify]
    cases (es.subscribe handler).1.heap[sub]? with
    | none => rfl
    | some s =>
      simp only [Option.map_some, Option.map_eq_map, Option.some_inj]
      split_ifs
      · exact hf s
      · rfl
  exact ⟨h'.counter_eq, fun i sub hsub => (hmap (·.id) (fun _ => rfl) sub).trans (h'.ids i sub hsub),
    fun sub => (hmap (·.active) (fun _ => rfl) sub ▸ h'.active_iff sub)⟩

/-- `Unsubscribe` of an active subscription `s` at pointer `sub`, in slot `i` of a valid stream:
the last subscription moves into slot `i`. -/
theorem unsubscribe_of_active {es : EventStream η ε} (h : es.Valid) {sub i : ℕ}
    {s : Subscription η ε} (hs : es.heap[sub]? = some s) (hactive : s.active = true)
    (hi : es.subscriptions[i]? = some sub) {moved : ℕ}
    (hmoved : es.subscriptions[es.subscriptions.length - 1]? = some moved) :
    es.unsubscribe sub = some ⟨(es.subscriptions.set i moved).dropLast, es.counter - 1,
      (es.heap.set sub { s with active := false }).modify moved fun m => { m with id := i }⟩ := by
  have hid : s.id = i := by
    have := h.ids i sub hi
    rw [hs, Option.map_some, Option.some_inj] at this
    exact this
  have hilen : i < es.subscriptions.length := (List.getElem?_eq_some_iff.mp hi).1
  have hcounter : es.counter ≠ 0 := by rw [h.counter_eq]; omega
  have hl : es.counter - 1 = es.subscriptions.length - 1 := by rw [h.counter_eq]
  have hmoved' : es.subscriptions[es.counter - 1]? = some moved := by rw [hl]; exact hmoved
  -- with one subscription left the slice becomes `nil`, which is what dropping its slot gives
  have hslice : (if es.counter - 1 = 0 then [] else
      (es.subscriptions.set i moved).take (es.counter - 1)) =
        (es.subscriptions.set i moved).dropLast := by
    rw [List.dropLast_eq_take, List.length_set, hl]
    split_ifs with h0
    · rw [h0, List.take_zero]
    · rfl
  simp only [unsubscribe, hs, hactive, if_true, if_neg hcounter, hmoved', hid, hilen]
  rw [hslice]

theorem Valid.unsubscribe {es : EventStream η ε} (h : es.Valid) (sub : ℕ) :
    ∃ es', es.unsubscribe sub = some es' ∧ es'.Valid ∧
      ∀ x, x ∈ es'.subscriptions ↔ x ∈ es.subscriptions ∧ x ≠ sub := by
  cases hs : es.heap[sub]? with
  | none =>
    -- `nil`: nothing happens, and the pointer was in no slot
    have hnot : sub ∉ es.subscriptions := fun hsub => by
      have := (h.active_iff sub).mpr hsub
      rw [hs] at this
      cases this
    refine ⟨es, by simp [EventStream.unsubscribe, hs], h, fun x => ⟨fun hx => ⟨hx, ?_⟩, And.left⟩⟩
    rintro rfl
    exact hnot hx
  | some s =>
    cases hactive : s.active
    · -- an inactive subscription: nothing happens, and it is in no slot
      have hnot : sub ∉ es.subscriptions := fun hsub => by
        have := (h.active_iff sub).mpr hsub
        rw [hs, Option.map_some, hactive] at this
        cases this
      refine ⟨es, by simp [EventStream.unsubscribe, hs, hactive], h,
        fun x => ⟨fun hx => ⟨hx, ?_⟩, And.left⟩⟩
      rintro rfl
      exact hnot hx
    · have hsub : sub ∈ es.subscriptions := (h.active_iff sub).mp (by simp [hs, hactive])
      obtain ⟨i, hi⟩ := List.mem_iff_getElem?.mp hsub
      have hilen : i < es.subscriptions.length := (List.getElem?_eq_some_iff.mp hi).1
      obtain ⟨moved, hmoved⟩ :
          ∃ moved, es.subscriptions[es.subscriptions.length - 1]? = some moved :=
        ⟨_, List.getElem?_eq_getElem (by omega)⟩
      have hnd := h.nodup
      have hmovedlt : moved < es.heap.length := h.lt_length (List.mem_of_getElem? hmoved)
      refine ⟨_, unsubscribe_of_active h hs hactive hi hmoved, ?_, mem_set_dropLast hnd hi hmoved⟩
      -- the heap after the call, at each pointer
      have hheap : ∀ x, ((es.heap.set sub { s with active := false }).modify moved
          fun m => { m with id := i })[x]? =
            if x = sub then some { s with active := false, id := if moved = sub then i else s.id }
            else if x = moved then es.heap[x]?.map fun m => { m with id := i }
            else es.heap[x]? := by
        intro x
        rw [List.getElem?_modify, List.getElem?_set]
        by_cases hx : x = sub
        · subst hx
          simp only [if_true, List.getElem?_eq_some_iff.mp hs |>.1, hs]
          split_ifs <;> simp
        · rw [if_neg (Ne.symm hx), if_neg hx]
          by_cases hxm : x = moved
          · subst hxm
            simp
          · simp [hxm, Ne.symm hxm]
      refine ⟨?_, ?_, ?_⟩
      · rw [length_set_dropLast, h.counter_eq]
      · -- slot `i` holds the moved subscription, which now has index `i`; the others keep theirs
        intro j x hx
        rw [getElem?_set_dropLast hilen] at hx
        split_ifs at hx with hj hji
        · cases hx
          rw [hheap]
          subst hji
          by_cases hms : moved = sub
          · simp [hms]
          · simp [hms, List.getElem?_eq_getElem hmovedlt]
        · have hxs : x ≠ sub := fun hxs => hji ((List.getElem?_inj (List.getElem?_eq_some_iff.mp hx).1
            hnd).mp (hx.trans (hxs ▸ hi.symm)))
          have hxm : x ≠ moved := fun hxm => by
            have := (List.getElem?_inj (List.getElem?_eq_some_iff.mp hx).1 hnd).mp
              (hx.trans (hxm ▸ hmoved.symm))
            omega
          rw [hheap, if_neg hxs, if_neg hxm]
          exact h.ids j x hx
      · -- the removed subscription is inactive; the moved one keeps its flag
        intro x
        rw [hheap, mem_set_dropLast hnd hi hmoved]
        by_cases hxs : x = sub
        · subst hxs
          simp
        · rw [if_neg hxs, ← h.active_iff]
          by_cases hxm : x = moved
          · subst hxm
            simp [hxs]
          · simp [hxm, hxs]

/-- `Unsubscribe` leaves the slots before the removed subscription's as they were: the last
subscription moves into the freed slot, which lies past them. -/
theorem Valid.take_unsubscribe {es es' : EventStream η ε} (h : es.Valid) {sub k : ℕ}
    (hes' : es.unsubscribe sub = some es') (hk : sub ∉ es.subscriptions.take k) :
    es'.subscriptions.take k = es.subscriptions.take k := by
  -- a subscription that is not active leaves the stream as it is
  have hsame : ∀ s : Subscription η ε, es.heap[sub]? = some s → s.active = false →
      es' = es := by
    intro s hs hactive
    simp [EventStream.unsubscribe, hs, hactive] at hes'
    exact hes'.symm
  cases hs : es.heap[sub]? with
  | none =>
    simp only [EventStream.unsubscribe, hs, Option.some_inj] at hes'
    rw [← hes']
  | some s =>
    cases hactive : s.active
    · rw [hsame s hs hactive]
    · have hsub : sub ∈ es.subscriptions := (h.active_iff sub).mp (by simp [hs, hactive])
      obtain ⟨i, hi⟩ := List.mem_iff_getElem?.mp hsub
      have hilen : i < es.subscriptions.length := (List.getElem?_eq_some_iff.mp hi).1
      -- the freed slot lies past the first `k`
      have hki : k ≤ i := by
        by_contra hlt
        apply hk
        rw [List.mem_iff_getElem?]
        exact ⟨i, by rw [List.getElem?_take, if_pos (by omega)]; exact hi⟩
      obtain ⟨moved, hmoved⟩ :
          ∃ moved, es.subscriptions[es.subscriptions.length - 1]? = some moved :=
        ⟨_, List.getElem?_eq_getElem (by omega)⟩
      rw [unsubscribe_of_active h hs hactive hi hmoved, Option.some_inj] at hes'
      rw [← hes', List.dropLast_eq_take, List.take_take, List.length_set,
        Nat.min_eq_left (by omega), List.take_set_of_le hki]

/-- `Unsubscribe` rewrites only the flag and the index of records: what reads neither is
unchanged. -/
theorem map_getElem?_unsubscribe {β : Type} (f : Subscription η ε → β)
    (hactive : ∀ sub : Subscription η ε, f { sub with active := false } = f sub)
    (hid : ∀ (sub : Subscription η ε) i, f { sub with id := i } = f sub)
    {es es' : EventStream η ε} {x : ℕ} (hes' : es.unsubscribe x = some es') (j : ℕ) :
    es'.heap[j]?.map f = es.heap[j]?.map f := by
  unfold EventStream.unsubscribe at hes'
  split at hes'
  · cases hes'
    rfl
  · rename_i sub hsub
    split_ifs at hes'
    · -- the last subscription: its flag is cleared
      cases hes'
      exact map_getElem?_set f hsub (hactive sub) j
    · simp only at hes'
      split at hes'
      · cases hes'
      · -- the flag is cleared, and the moved subscription takes the freed index
        split_ifs at hes' <;> cases hes'
        all_goals
          rw [map_getElem?_modify f _ _ (fun m => hid m _)]
          exact map_getElem?_set f hsub (hactive sub) j
    · simp only at hes'
      split at hes' <;> cases hes'
    · cases hes'
      rfl


/-! ### Every sequence of calls -/

/-- `SubscribeWithPredicate` appends the new subscription with its predicate already set. -/
theorem subscribeWithPredicate_heap (es : EventStream η ε) (handler : η) (p : ε → Bool) :
    (es.subscribeWithPredicate handler p).1.heap = es.heap ++ [⟨es.counter, handler, some p, true⟩] :=
  modify_append_singleton_length es.heap _ _

section Abstracts

variable {es : EventStream η ε} {acc : List (η × Option (ε → Bool)) × Finset ℕ}

theorem Abstracts.length_heap (ha : es.Abstracts acc) : es.heap.length = acc.1.length := by
  rw [← ha.given, List.length_map]

theorem Abstracts.getElem?_given (ha : es.Abstracts acc) (sub : ℕ) :
    acc.1[sub]? = es.heap[sub]?.map fun s => (s.handler, s.p) := by
  rw [← ha.given, List.getElem?_map]

theorem Abstracts.subscribe (ha : es.Abstracts acc) (handler : η) :
    (es.subscribe handler).1.Abstracts (liveStep acc (.subscribe handler)) where
  given := by simp [EventStream.subscribe, liveStep, ha.given]
  mem_iff := by
    intro x
    simp [EventStream.subscribe, liveStep, ha.mem_iff, ha.length_heap, or_comm]

theorem Abstracts.subscribeWithPredicate (ha : es.Abstracts acc) (handler : η) (p : ε → Bool) :
    (es.subscribeWithPredicate handler p).1.Abstracts
      (liveStep acc (.subscribeWithPredicate handler p)) where
  given := by simp [subscribeWithPredicate_heap, liveStep, ha.given]
  mem_iff := (ha.subscribe handler).mem_iff

/-- The stream calls for an event what the predicate given with the subscription accepts. -/
theorem Abstracts.acceptsAt (ha : es.Abstracts acc) {sub : ℕ} (hsub : sub < es.heap.length)
    (evt : ε) : es.acceptsAt sub evt = givenAccepts acc.1 sub evt := by
  rw [EventStream.acceptsAt, givenAccepts, ha.getElem?_given, List.getElem?_eq_getElem hsub]
  cases hp : es.heap[sub].p <;> simp [Subscription.accepts, hp]

end Abstracts

theorem Valid.applyOp {es : EventStream η ε} (h : es.Valid)
    {acc : List (η × Option (ε → Bool)) × Finset ℕ} (ha : es.Abstracts acc)
    (op : EventStreamOp η ε) :
    ∃ es', es.applyOp op = some es' ∧ es'.Valid ∧ es'.Abstracts (liveStep acc op) := by
  cases op with
  | subscribe handler =>
    exact ⟨_, rfl, h.subscribe handler, ha.subscribe handler⟩
  | subscribeWithPredicate handler p =>
    exact ⟨_, rfl, h.subscribeWithPredicate handler p, ha.subscribeWithPredicate handler p⟩
  | unsubscribe sub =>
    obtain ⟨es', hes', hv, hmem⟩ := h.unsubscribe sub
    refine ⟨es', hes', hv, ⟨?_, fun x => ?_⟩⟩
    · -- the handlers and predicates stay in place
      show es'.heap.map _ = acc.1
      rw [← ha.given]
      apply List.ext_getElem?
      intro j
      rw [List.getElem?_map, List.getElem?_map]
      exact map_getElem?_unsubscribe _ (fun _ => rfl) (fun _ _ => rfl) hes' j
    · show x ∈ es'.subscriptions ↔ x ∈ acc.2.erase sub
      rw [hmem, ha.mem_iff, Finset.mem_erase]
      exact and_comm.trans (and_congr_left fun _ => Iff.rfl)

end EventStream

end ProtoActor.Eventstream
