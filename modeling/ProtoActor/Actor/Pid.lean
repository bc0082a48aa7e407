import Mathlib.Logic.Function.Basic
import Mathlib.Data.List.Basic

/-!
# Process identifiers and `PIDSet`

`PID` is the protobuf message of `actor/actor.pb.go` with its three data fields (the cached
process pointer `p` of `actor/pid.go` is a lookup cache, not data).  `PIDSet` follows
`actor/pidset.go`: a slice `pids` in insertion order, with swap-with-last removal, and a map
`lookup` from the `(Address, Id)` key of a PID to its index in `pids`.  A Go map is a partial
function here; a nil map and an empty one read alike, so `ensureInit` has nothing to do.

The actor context keeps its children and its watchers in `PIDSet`s, and iterates `pids` to stop
its children (last to first) and to notify its watchers (first to last).
-/

namespace ProtoActor.Actor

/-- A process identifier: `Address`, `Id` and `RequestId` of `actor.PID`. -/
structure PID where
  address : String
  id : String
  requestId : UInt32
  deriving DecidableEq, Repr

/-- `pidKey`: a PID up to its request id, the key under which `PIDSet` stores it. -/
structure PidKey where
  address : String
  id : String
  deriving DecidableEq, Repr

/-- The set of PIDs of `actor/pidset.go`. -/
structure PIDSet where
  pids : List PID
  lookup : PidKey → Option Nat

namespace PIDSet

/-- `PIDSet.key`. -/
def key (pid : PID) : PidKey :=
  ⟨pid.address, pid.id⟩

/-- The zero value `PIDSet{}`: no PIDs and a nil lookup map. -/
def empty : PIDSet :=
  ⟨[], fun _ => none⟩

/-- `PIDSet.indexOf`, with `none` for the source's `-1`. -/
def indexOf (s : PIDSet) (v : PID) : Option Nat :=
  s.lookup (key v)

/-- `PIDSet.Contains`: the key of `v` is in the lookup map. -/
def contains (s : PIDSet) (v : PID) : Bool :=
  (s.lookup (key v)).isSome

/-- `PIDSet.Add`: append `v` and record its index, unless its key is already present. -/
def add (s : PIDSet) (v : PID) : PIDSet :=
  if s.contains v then s
  else ⟨s.pids ++ [v], Function.update s.lookup (key v) (some s.pids.length)⟩

/-- `PIDSet.Remove`: delete the key of `v`; unless `v` sat last, move the last PID into its slot
and re-index it; then drop the last slot.  The flag says whether `v` was present. -/
def remove (s : PIDSet) (v : PID) : PIDSet × Bool :=
  match s.indexOf v with
  | none => (s, false)
  | some i =>
    let lookup := Function.update s.lookup (key v) none
    if i < s.pids.length - 1 then
      let lastPID := s.pids.getLast?.getD v
      (⟨(s.pids.set i lastPID).dropLast, Function.update lookup (key lastPID) (some i)⟩, true)
    else
      (⟨s.pids.dropLast, lookup⟩, true)

/-- `PIDSet.Len`. -/
def len (s : PIDSet) : Nat :=
  s.pids.length

/-- `PIDSet.Empty`. -/
def isEmpty (s : PIDSet) : Bool :=
  s.len == 0

/-- `PIDSet.Clear`: truncate the slice and replace the lookup map by a fresh one. -/
def clear (_ : PIDSet) : PIDSet :=
  empty

/-- `NewPIDSet`: add the given PIDs one by one to the empty set. -/
def newPIDSet (pids : List PID) : PIDSet :=
  pids.foldl add empty

/-- `PIDSet.Clone`: a new set built from the values of this one. -/
def clone (s : PIDSet) : PIDSet :=
  newPIDSet s.pids

@[simp] theorem empty_pids : empty.pids = [] := rfl

@[simp] theorem len_empty : empty.len = 0 := rfl

theorem add_of_contains {s : PIDSet} {v : PID} (h : s.contains v = true) : s.add v = s := by
  simp [add, h]

theorem add_of_not_contains {s : PIDSet} {v : PID} (h : s.contains v = false) :
    s.add v = ⟨s.pids ++ [v], Function.update s.lookup (key v) (some s.pids.length)⟩ := by
  simp [add, h]

/-- Removing a PID whose key is absent changes nothing. -/
theorem remove_of_indexOf_none {s : PIDSet} {v : PID} (h : s.indexOf v = none) :
    s.remove v = (s, false) := by
  simp [remove, h]

end PIDSet

end ProtoActor.Actor
