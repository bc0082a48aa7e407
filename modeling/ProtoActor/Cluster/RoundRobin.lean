import Mathlib.Algebra.Group.Nat.Defs
import ProtoActor.Cluster.MemberList
import ProtoActor.Actor.Pid
import ProtoActor.Transition.Run

/-!
# Round robin

`cluster/round_robin.go` and `router/roundrobin_router.go`.  Both pick the next of `l` targets
with an `int32` counter that `atomic.AddInt32` bumps by one and lets wrap.
`SimpleRoundRobin.GetByRoundRobin`, which `simpleMemberStrategy.GetActivator` calls for every
activation, indexes the members with `int(nv) % l`.  Go's `%` truncates toward zero, so once the
counter has wrapped the index is negative unless `l` divides the counter, and the lookup panics;
`roundRobinRoutee` sets a negative counter back to zero first.  A panic is `none` here.

* `val_runFrom_next`: the counter counts the calls that had two members or more, wrapped to
  32 bits.
* `round_robin_index_wraps_negative`: with three members, the call after the first `2 ^ 31 - 1`
  such calls from `NewSimpleRoundRobin` computes the index `-2` and panics.
-/

namespace ProtoActor.Cluster

open ProtoActor.Transition

/-- Go's slice index with an `int`: a negative or too large index panics. -/
def sliceIndex {α : Type} (xs : List α) (i : ℤ) : Option α :=
  if 0 ≤ i then xs[i.toNat]? else none

/-- `SimpleRoundRobin`: its counter `val`; the members `m.GetAllMembers()` returns are given to
each call. -/
structure SimpleRoundRobin where
  val : Int32
  deriving DecidableEq, Repr

/-- `NewSimpleRoundRobin`. -/
def newSimpleRoundRobin : SimpleRoundRobin := ⟨0⟩

/-- The index `int(nv) % l`: Go's `%` truncates toward zero, as `Int.tmod` does. -/
def roundRobinIndex (nv : Int32) (l : ℕ) : ℤ := nv.toInt.tmod l

/-- `GetByRoundRobin`: the address picked, `none` for a panic, and the round robin after the
call. -/
def SimpleRoundRobin.getByRoundRobin (r : SimpleRoundRobin) (members : List Member) :
    Option String × SimpleRoundRobin :=
  let l := members.length
  if l = 0 then (some "", r)
  else if l = 1 then (members[0]?.map Member.address, r)
  else
    let nv := r.val + 1
    ((sliceIndex members (roundRobinIndex nv l)).map Member.address, ⟨nv⟩)

/-- `GetActivator`: the round robin `rr` the strategy keeps beside its members, over
`GetAllMembers`; the sender is not read. -/
def SimpleMemberStrategy.getActivator (m : SimpleMemberStrategy) (rr : SimpleRoundRobin)
    (_senderAddress : String) : Option String × SimpleRoundRobin :=
  rr.getByRoundRobin m.getAllMembers

/-- The round robin after a call. -/
def SimpleRoundRobin.next (r : SimpleRoundRobin) (members : List Member) : SimpleRoundRobin :=
  (r.getByRoundRobin members).2

theorem SimpleRoundRobin.val_next (r : SimpleRoundRobin) (members : List Member) :
    (r.next members).val = if 2 ≤ members.length then r.val + 1 else r.val := by
  dsimp only [next, getByRoundRobin]
  split_ifs <;> first | rfl | omega

/-- The run lemma: the counter counts the calls that had two members or more, wrapped to
32 bits. -/
theorem SimpleRoundRobin.val_runFrom_next (r : SimpleRoundRobin) (calls : List (List Member)) :
    (runFrom next r calls).val = r.val + Int32.ofNat (calls.countP (2 ≤ ·.length)) := by
  induction calls generalizing r with
  | nil => simp
  | cons members calls ih =>
    rw [runFrom_cons, ih, val_next]
    by_cases h : 2 ≤ members.length
    · rw [if_pos h, List.countP_cons_of_pos (by simpa using h), Int32.ofNat_add, Int32.add_assoc,
        Int32.add_comm 1]
      rfl
    · rw [if_neg h, List.countP_cons_of_neg (by simpa using h)]

/-- Three members, for the failing input. -/
def threeMembers : List Member :=
  [⟨"10.0.0.1", 8000, "a", ["kind"]⟩, ⟨"10.0.0.2", 8000, "b", ["kind"]⟩,
    ⟨"10.0.0.3", 8000, "c", ["kind"]⟩]

theorem round_robin_index_wraps_negative :
    (runFrom SimpleRoundRobin.next newSimpleRoundRobin
        (List.replicate (2 ^ 31 - 1) threeMembers)).val = 2147483647 ∧
      roundRobinIndex (2147483647 + 1) threeMembers.length = -2 ∧
      (SimpleMemberStrategy.getActivator ⟨threeMembers⟩ (runFrom SimpleRoundRobin.next
        newSimpleRoundRobin (List.replicate (2 ^ 31 - 1) threeMembers)) "").1 = none := by
  have hval : (runFrom SimpleRoundRobin.next newSimpleRoundRobin
      (List.replicate (2 ^ 31 - 1) threeMembers)).val = 2147483647 := by
    rw [SimpleRoundRobin.val_runFrom_next, List.countP_replicate, if_pos (by decide)]
    decide
  -- the run is never evaluated: only its counter matters
  generalize runFrom SimpleRoundRobin.next newSimpleRoundRobin
    (List.replicate (2 ^ 31 - 1) threeMembers) = r at hval ⊢
  obtain ⟨v⟩ := r
  change v = 2147483647 at hval
  subst hval
  exact ⟨rfl, by decide, by decide⟩

end ProtoActor.Cluster

namespace ProtoActor.Router

open ProtoActor.Actor ProtoActor.Cluster

/-- `roundRobinRoutee`: the routee picked, `none` for a panic, and the counter after the call. -/
def roundRobinRoutee (index : Int32) (routees : PIDSet) : Option PID × Int32 :=
  let i := (index + 1).toInt
  -- a wrapped counter is set back to zero
  let index := if i < 0 then 0 else index + 1
  let i := if i < 0 then 0 else i
  let mod := routees.len
  -- `i % mod` with `mod = 0` is a division by zero
  (if mod = 0 then none else sliceIndex routees.pids (i.tmod mod), index)

end ProtoActor.Router
