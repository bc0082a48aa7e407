import Mathlib.Data.Int.Notation
import ProtoActor.Actor.PidSetSpec

/-!
# The router actors

`router/routeractor_group.go` and `router/routeractor_pool.go`.  Behind the router's process the
router actor keeps the routees in the router's state and answers the management messages.  The
group and the pool actor handle `AddRoutee` (watch the PID and add it, unless it is there),
`RemoveRoutee` (unwatch and remove it, if it is there), `BroadcastMessage` (request the message
from every routee, with the original sender) and `GetRoutees` (respond with the routees) alike:
`receiveRouteeMessage`.  The pool actor also sends a removed routee a `PoisonPill`, and removes a
routee whose `Terminated` it receives; the group actor ignores `Terminated`.

Here the actor works on the `PIDSet` of routees itself, as it does on those of the broadcast,
round-robin and random states, whose `GetRoutees` returns the set they were last given;
`Router.State` puts it on the states of every kind.  `Started` (but for the group's watches), the
`WaitGroup` and the sleep before the `PoisonPill` are left out.

* `WatchesRoutees.step`: every message keeps a group router watching exactly its routees: each
  key of its routees has had one more `Watch` than `Unwatch`, every other key as many of each,
  whatever was added and removed.  A routee that stopped stays watched and routed to.
-/

namespace ProtoActor.Router

open ProtoActor.Actor

variable {μ : Type}

/-- The messages of the router actors once started. -/
inductive RouterMessage (μ : Type)
  | addRoutee (pid : PID)
  | removeRoutee (pid : PID)
  /-- A `BroadcastMessage`, with the sender of the envelope it came in. -/
  | broadcastMessage (message : μ) (sender : Option PID)
  | getRoutees
  /-- `actor.Terminated` of `who`. -/
  | terminated (who : PID)

/-- What a router actor sends. -/
inductive RouterEffect (μ : Type)
  /-- `context.Watch`. -/
  | watch (pid : PID)
  /-- `context.Unwatch`. -/
  | unwatch (pid : PID)
  /-- `context.Send(pid, &actor.PoisonPill{})`. -/
  | poisonPill (pid : PID)
  /-- `context.RequestWithCustomSender`. -/
  | request (pid : PID) (message : μ) (sender : Option PID)
  /-- `context.Respond(&Routees{...})`. -/
  | respond (pids : List PID)

/-- What both router actors do with the routee messages; `RemoveRoutee` up to the pool's
`PoisonPill`. -/
def receiveRouteeMessage (routees : PIDSet) : RouterMessage μ → PIDSet × List (RouterEffect μ)
  | .addRoutee pid =>
    if routees.contains pid then (routees, []) else (routees.add pid, [.watch pid])
  | .removeRoutee pid =>
    if routees.contains pid then ((routees.remove pid).1, [.unwatch pid]) else (routees, [])
  | .broadcastMessage message sender =>
    (routees, routees.pids.map fun pid => .request pid message sender)
  | .getRoutees => (routees, [.respond routees.pids])
  | .terminated _ => (routees, [])

/-- `groupRouterActor.Receive`. -/
def groupReceive (routees : PIDSet) (m : RouterMessage μ) : PIDSet × List (RouterEffect μ) :=
  receiveRouteeMessage routees m

/-- `poolRouterActor.Receive`: a removed routee is sent a `PoisonPill`, and a routee whose
`Terminated` arrives is removed. -/
def poolReceive (routees : PIDSet) : RouterMessage μ → PIDSet × List (RouterEffect μ)
  | .removeRoutee pid =>
    if routees.contains pid then ((routees.remove pid).1, [.unwatch pid, .poisonPill pid])
    else (routees, [])
  | .terminated who => ((routees.remove who).1, [])
  | m => receiveRouteeMessage routees m

/-- One message to a group router, its effects appended to those before. -/
def groupStep (s : PIDSet × List (RouterEffect μ)) (m : RouterMessage μ) :
    PIDSet × List (RouterEffect μ) :=
  ((groupReceive s.1 m).1, s.2 ++ (groupReceive s.1 m).2)

/-! ### Counting watches -/

/-- A `Watch` of a PID with the key `k`. -/
def RouterEffect.watchOf (k : PidKey) : RouterEffect μ → Bool
  | .watch pid => PIDSet.key pid == k
  | _ => false

/-- An `Unwatch` of a PID with the key `k`. -/
def RouterEffect.unwatchOf (k : PidKey) : RouterEffect μ → Bool
  | .unwatch pid => PIDSet.key pid == k
  | _ => false

/-- The `Watch`es less the `Unwatch`es sent to the key `k`. -/
def netWatches (effects : List (RouterEffect μ)) (k : PidKey) : ℤ :=
  (effects.countP (RouterEffect.watchOf k) : ℤ) - effects.countP (RouterEffect.unwatchOf k)

theorem netWatches_append (effects effects' : List (RouterEffect μ)) (k : PidKey) :
    netWatches (effects ++ effects') k = netWatches effects k + netWatches effects' k := by
  simp only [netWatches, List.countP_append]
  push_cast
  omega

theorem netWatches_watch (pid : PID) (k : PidKey) :
    netWatches [(RouterEffect.watch pid : RouterEffect μ)] k = if PIDSet.key pid = k then 1 else 0 := by
  by_cases hk : PIDSet.key pid = k <;> simp [netWatches, RouterEffect.watchOf,
    RouterEffect.unwatchOf, hk]

theorem netWatches_unwatch (pid : PID) (k : PidKey) :
    netWatches [(RouterEffect.unwatch pid : RouterEffect μ)] k =
      if PIDSet.key pid = k then -1 else 0 := by
  by_cases hk : PIDSet.key pid = k <;> simp [netWatches, RouterEffect.watchOf,
    RouterEffect.unwatchOf, hk]

/-- The requests of a broadcast watch nothing. -/
theorem netWatches_requests (pids : List PID) (message : μ) (sender : Option PID) (k : PidKey) :
    netWatches (pids.map fun pid => RouterEffect.request pid message sender) k = 0 := by
  simp [netWatches, List.countP_map, Function.comp_def, RouterEffect.watchOf,
    RouterEffect.unwatchOf]

/-- The keys of the routees after a message, as a set. -/
def keysAfterMessage (A : Finset PidKey) : RouterMessage μ → Finset PidKey
  | .addRoutee pid => insert (PIDSet.key pid) A
  | .removeRoutee pid => A.erase (PIDSet.key pid)
  | _ => A

/-- What a group router keeps: valid routees whose keys are `A`, and for each key one `Watch` more
than `Unwatch`es if it is in `A`, as many of each otherwise. -/
structure WatchesRoutees (s : PIDSet × List (RouterEffect μ)) (A : Finset PidKey) : Prop where
  valid : s.1.Valid
  keys : s.1.Abstracts A
  watched : ∀ k, netWatches s.2 k = if k ∈ A then 1 else 0

theorem contains_iff_mem {s : PIDSet} {A : Finset PidKey} (hA : s.Abstracts A) (v : PID) :
    s.contains v = true ↔ PIDSet.key v ∈ A :=
  hA (PIDSet.key v)

/-- **Step lemma.** -/
theorem WatchesRoutees.step {s : PIDSet × List (RouterEffect μ)} {A : Finset PidKey}
    (h : WatchesRoutees s A) (m : RouterMessage μ) :
    WatchesRoutees (groupStep s m) (keysAfterMessage A m) := by
  obtain ⟨routees, effects⟩ := s
  cases m with
  | addRoutee pid =>
    simp only [groupStep, groupReceive, receiveRouteeMessage, keysAfterMessage]
    split_ifs with hc
    · -- a routee already there: nothing changes
      have hmem := (contains_iff_mem h.keys pid).mp hc
      rw [Finset.insert_eq_of_mem hmem, List.append_nil]
      exact h
    · -- a new routee is watched once
      have hnot : PIDSet.key pid ∉ A := fun hmem => hc ((contains_iff_mem h.keys pid).mpr hmem)
      refine ⟨h.valid.add pid, h.keys.add pid, fun k => ?_⟩
      rw [netWatches_append, h.watched k, netWatches_watch]
      by_cases hk : k = PIDSet.key pid
      · subst hk
        simp [hnot]
      · simp [hk, Ne.symm hk]
  | removeRoutee pid =>
    simp only [groupStep, groupReceive, receiveRouteeMessage, keysAfterMessage]
    split_ifs with hc
    · -- a routee that is there is unwatched once
      have hmem := (contains_iff_mem h.keys pid).mp hc
      refine ⟨h.valid.remove pid, h.keys.remove h.valid pid, fun k => ?_⟩
      rw [netWatches_append, h.watched k, netWatches_unwatch]
      by_cases hk : k = PIDSet.key pid
      · subst hk
        simp [hmem]
      · simp [hk, Ne.symm hk]
    · have hnot : PIDSet.key pid ∉ A := fun hmem => hc ((contains_iff_mem h.keys pid).mpr hmem)
      rw [Finset.erase_eq_of_notMem hnot, List.append_nil]
      exact h
  | broadcastMessage message sender =>
    refine ⟨h.valid, h.keys, fun k => ?_⟩
    simp only [groupStep, groupReceive, receiveRouteeMessage]
    rw [netWatches_append, netWatches_requests, h.watched k, Int.add_zero]
    rfl
  | getRoutees =>
    refine ⟨h.valid, h.keys, fun k => ?_⟩
    simp only [groupStep, groupReceive, receiveRouteeMessage]
    have hrespond : netWatches [RouterEffect.respond (μ := μ) routees.pids] k = 0 := rfl
    rw [netWatches_append, h.watched k, hrespond, Int.add_zero]
    rfl
  | terminated who =>
    -- the group router does nothing on `Terminated`
    simp only [groupStep, groupReceive, receiveRouteeMessage, keysAfterMessage, List.append_nil]
    exact h

/-- A request to a PID with the key `k`. -/
def RouterEffect.requestTo (k : PidKey) : RouterEffect μ → Bool
  | .request pid _ _ => PIDSet.key pid == k
  | _ => false

end ProtoActor.Router
