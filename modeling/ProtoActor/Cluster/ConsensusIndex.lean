import ProtoActor.Cluster.Consensus

/-!
# The index of the consensus checks

`cluster/consensus_checks.go`.  `ConsensusChecks` keeps the checks by id and, for each state key,
the set of ids of the checks watching it.  `Add` stores the check and registers its id under each
of its affected keys; `Remove` looks the id up in the index of state keys, and only if some state
key equals it deletes that key's set and unregisters the id everywhere; it never deletes the
stored check.

What the index should answer is read from the checks added and not removed since
(`registered`, the abstract registry): `GetByUpdatedKey` of a key would be the ids of the
registered checks that watch it.

* `removed_check_still_found`: the answers are not the registry's.  After `Add(id, check)` and
  `Remove(id)` the check is still found by its key, and after a second `Add` of the same id with
  other keys it is still found by a key it no longer watches.
-/

namespace ProtoActor.Cluster

open ProtoActor.Transition

variable {α : Type}

/-- A call on the checks. -/
inductive ConsensusChecksOp (α : Type)
  | add (id : String) (check : ConsensusCheck α)
  | remove (id : String)

namespace ConsensusChecks

/-- One call. -/
def apply (cc : ConsensusChecks α) : ConsensusChecksOp α → ConsensusChecks α
  | .add id check => cc.add id check
  | .remove id => cc.remove id

/-- The checks after the calls, from `NewConsensusChecks`. -/
def run (ops : List (ConsensusChecksOp α)) : ConsensusChecks α :=
  runFrom apply newConsensusChecks ops

/-! ### What the index should answer -/

/-- The checks added and not removed since, by id. -/
def registered (ops : List (ConsensusChecksOp α)) : AList (fun _ : String => ConsensusCheck α) :=
  runFrom (fun reg op => match op with
    | .add id check => reg.insert id check
    | .remove id => reg.erase id) ∅ ops

/-! ### `Remove` does not unregister -/

/-- A check watching the key `topology`. -/
def topologyCheck : ConsensusCheck Unit :=
  (newConsensusCheckBuilder "topology" fun _ => 0).build

/-- A check watching the key `members`. -/
def membersCheck : ConsensusCheck Unit :=
  (newConsensusCheckBuilder "members" fun _ => 0).build

/-- `Add` of a check, then `Remove` of its id. -/
def addThenRemove : List (ConsensusChecksOp Unit) :=
  [.add "check" topologyCheck, .remove "check"]

/-- Two `Add`s of one id, watching other keys. -/
def addTwice : List (ConsensusChecksOp Unit) :=
  [.add "check" topologyCheck, .add "check" membersCheck]

theorem removed_check_still_found :
    (run addThenRemove).getByUpdatedKey "topology" = ["check"] ∧
      "check" ∉ registered addThenRemove ∧
      (run addTwice).getByUpdatedKey "topology" = ["check"] ∧
      ((registered addTwice).lookup "check").map (·.affectedKeys) = some ["members"] := by
  decide

end ConsensusChecks

end ProtoActor.Cluster
