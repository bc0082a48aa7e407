import ProtoActor.Cluster.GossipState

/-!
# Consensus checks

`cluster/consensus_check_builder.go`, `cluster/consensus_checks.go` and `cluster/consensus.go`.

A consensus check watches some keys of the gossip state.  `ConsensusCheckBuilder.build` returns
the checker: it collects the member states of the given member ids (`getValidMemberStates`),
reads each one's value for each watched key (`MapToValue`, zero when missing), and has consensus
when all the values agree (`HasConsensus`).  `Build` wraps the checker in a closure that keeps
whether it had consensus, and on a change calls `TrySetConsensus` or `TryResetConsensus` of a
fresh `gossipConsensusHandler`, whose `TryGetConsensus` answers the caller.  `ConsensusChecks`
stores the checks by id, with an index from each state key to the ids of the checks watching it.

The checker never reaches consensus.  `getValidMemberStates` appends to its own copy of the slice
header it is given, so the checker's `memberStates` stays nil: with member ids it answers "not
all members have state", and without it finds no values, and `HasConsensus` of no values is
false (`ConsensusCheckBuilder.check_fst`).  A check therefore never calls `TrySetConsensus`
(`ConsensusCheck.check_eq`).

A check's closure and its handler are one record here, `ConsensusCheck`, stored under its id;
`TrySetConsensus` sets the result from a goroutine that holds the handler's lock, and the model
sets it at once.  `MapToValue` asserts that the unpacked value is a `uint64`; the unpacking is a
function to `UInt64` here, since the checker never calls it.
-/

namespace ProtoActor.Cluster

open ProtoActor.Transition

variable {α : Type}

/-- `consensusResult`: what `TryGetConsensus` returns; the value is `nil` or a `uint64`. -/
structure ConsensusResult where
  consensus : Bool
  value : Option UInt64
  deriving DecidableEq, Repr

namespace ConsensusResult

/-- The result of `NewGossipConsensusHandler`. -/
def new : ConsensusResult :=
  ⟨false, none⟩

/-- `TrySetConsensus`. -/
def trySetConsensus (_ : ConsensusResult) (consensus : Option UInt64) : ConsensusResult :=
  ⟨true, consensus⟩

/-- `TryResetConsensus`: a no-op. -/
def tryResetConsensus (r : ConsensusResult) : ConsensusResult :=
  r

end ConsensusResult

/-- `consensusValue`: a watched key and the unpacking of its values. -/
structure ConsensusValue (α : Type) where
  key : String
  value : α → UInt64

/-- `consensusMemberValue`. -/
structure ConsensusMemberValue where
  memberID : String
  key : String
  value : UInt64
  deriving DecidableEq, Repr

/-- `MapToValue`: a member's value for the key, zero when it has none. -/
def mapToValue (valueTuple : ConsensusValue α) (member : String) (state : GossipMemberState α) :
    ConsensusMemberValue :=
  match state.values.lookup valueTuple.key with
  | none => ⟨member, valueTuple.key, 0⟩
  | some gossipKey => ⟨member, valueTuple.key, valueTuple.value gossipKey.value⟩

/-- `HasConsensus`: some value, and all equal to the first. -/
def hasConsensus : List ConsensusMemberValue → Bool × UInt64
  | [] => (false, 0)
  | first :: rest => if rest.all (·.value == first.value) then (true, first.value) else (false, 0)

/-- `ConsensusCheckBuilder`, by the values it checks. -/
structure ConsensusCheckBuilder (α : Type) where
  getConsensusValues : List (ConsensusValue α)

/-- `NewConsensusCheckBuilder`. -/
def newConsensusCheckBuilder (key : String) (getValue : α → UInt64) : ConsensusCheckBuilder α :=
  ⟨[⟨key, getValue⟩]⟩

namespace ConsensusCheckBuilder

/-- `AffectedKeys`. -/
def affectedKeys (ccb : ConsensusCheckBuilder α) : List String :=
  ccb.getConsensusValues.map (·.key)

/-- `getValidMemberStates`, by the slice it builds in its own `result`. -/
def getValidMemberStates (state : GossipState α) (ids : List String)
    (result : List (String × GossipMemberState α)) : List (String × GossipMemberState α) :=
  result ++ (state.members.entries.filter (·.1 ∈ ids)).map fun e => (e.1, e.2)

/-- The checker `build` returns, on the state and the member ids; its second result is `nil` or
the agreed `uint64`.  The case of one checked value is the general case with a one-element list. -/
def check (ccb : ConsensusCheckBuilder α) (state : GossipState α) (ids : List String) :
    Bool × Option UInt64 :=
  let memberStates : List (String × GossipMemberState α) := []
  -- `getValidMemberStates` appends to its own copy of the slice: `memberStates` stays nil
  let _ := getValidMemberStates state ids memberStates
  if memberStates.length < ids.length then (false, none)
  else
    let valueTuples := ccb.getConsensusValues.flatMap fun cv =>
      memberStates.map fun p => mapToValue cv p.1 p.2
    let (consensus, topologyHash) := hasConsensus valueTuples
    (consensus, some topologyHash)

end ConsensusCheckBuilder

/-- A registered check: the keys it watches, the checker, and what its closure captures: whether
it had consensus, and the handler's result. -/
structure ConsensusCheck (α : Type) where
  affectedKeys : List String
  builder : ConsensusCheckBuilder α
  hadConsensus : Bool
  result : ConsensusResult

/-- `Build`: the check over a fresh handler. -/
def ConsensusCheckBuilder.build (ccb : ConsensusCheckBuilder α) : ConsensusCheck α :=
  ⟨ccb.affectedKeys, ccb, false, .new⟩

namespace ConsensusCheck

/-- `checkConsensus`, the check's closure: call the handler when consensus is reached or lost. -/
def check (c : ConsensusCheck α) (state : GossipState α) (members : List String) :
    ConsensusCheck α :=
  let (consensus, value) := c.builder.check state members
  if consensus then
    if c.hadConsensus then c
    else { c with result := c.result.trySetConsensus value, hadConsensus := true }
  else if c.hadConsensus then { c with result := c.result.tryResetConsensus, hadConsensus := false }
  else c

/-- `TryGetConsensus` of the check's handler. -/
def tryGetConsensus (c : ConsensusCheck α) : Option UInt64 × Bool :=
  (c.result.value, c.result.consensus)

end ConsensusCheck

/-- `ConsensusChecks`: the checks by id, and for each state key the ids of the checks watching
it (a set). -/
structure ConsensusChecks (α : Type) where
  checks : AList (fun _ : String => ConsensusCheck α)
  affectedKeysByStateKey : AList (fun _ : String => List String)

/-- `NewConsensusChecks`. -/
def newConsensusChecks : ConsensusChecks α :=
  ⟨∅, ∅⟩

namespace ConsensusChecks

/-- `GetByUpdatedKey`: the ids of the stored checks watching the key. -/
def getByUpdatedKey (cc : ConsensusChecks α) (key : String) : List String :=
  ((cc.affectedKeysByStateKey.lookup key).getD []).filter (· ∈ cc.checks)

/-- `GetByUpdatedKeys`: the ids of the stored checks watching one of the keys, each once. -/
def getByUpdatedKeys (cc : ConsensusChecks α) (keys : List String) : List String :=
  runFrom (fun result key => result ++ (cc.getByUpdatedKey key).filter (· ∉ result)) [] keys

/-- `registerAffectedKeys`. -/
def registerAffectedKeys (cc : ConsensusChecks α) (id : String) (keys : List String) :
    ConsensusChecks α :=
  { cc with
    affectedKeysByStateKey := runFrom (fun m key => m.insert key (((m.lookup key).getD []).insert id))
      cc.affectedKeysByStateKey keys }

/-- `Add`. -/
def add (cc : ConsensusChecks α) (id : String) (check : ConsensusCheck α) : ConsensusChecks α :=
  { cc with checks := cc.checks.insert id check }.registerAffectedKeys id check.affectedKeys

/-- `unregisterAffectedKeys`: drop the id from every key's set, then the keys left empty. -/
def unregisterAffectedKeys (cc : ConsensusChecks α) (id : String) : ConsensusChecks α :=
  let acc := runFrom (fun (acc : AList (fun _ : String => List String) × List String)
      (e : Σ _ : String, List String) =>
      if id ∈ e.2 then
        let internal := e.2.erase id
        (acc.1.insert e.1 internal, if internal.length = 0 then acc.2 ++ [e.1] else acc.2)
      else acc) (cc.affectedKeysByStateKey, []) cc.affectedKeysByStateKey.entries
  { cc with affectedKeysByStateKey := runFrom (fun m key => m.erase key) acc.1 acc.2 }

/-- `Remove`.  It looks the id up among the state keys, not the check ids, and never deletes the
stored check. -/
def remove (cc : ConsensusChecks α) (id : String) : ConsensusChecks α :=
  if id ∈ cc.affectedKeysByStateKey then
    { cc with affectedKeysByStateKey := cc.affectedKeysByStateKey.erase id }.unregisterAffectedKeys id
  else cc

end ConsensusChecks

/-! ### The checker never reaches consensus -/

/-- Whatever the state and the member ids, the checker reports no consensus. -/
theorem ConsensusCheckBuilder.check_fst (ccb : ConsensusCheckBuilder α) (state : GossipState α)
    (ids : List String) : (ccb.check state ids).1 = false := by
  dsimp only [ConsensusCheckBuilder.check]
  -- with member ids the "not all members have state" branch answers; without, no values are read
  split_ifs
  · rfl
  · have hnil : (ccb.getConsensusValues.flatMap fun _ => ([] : List ConsensusMemberValue)) = [] := by
      simp [List.flatMap_eq_nil_iff]
    simp only [List.map_nil, hnil, hasConsensus]

/-- A check only clears its flag: it never calls `TrySetConsensus`. -/
theorem ConsensusCheck.check_eq (c : ConsensusCheck α) (state : GossipState α)
    (members : List String) : c.check state members = { c with hadConsensus := false } := by
  have hfst := c.builder.check_fst state members
  unfold ConsensusCheck.check
  rcases hc : c.builder.check state members with ⟨consensus, value⟩
  rw [hc] at hfst
  cases hfst
  cases hhad : c.hadConsensus
  · cases c; simp_all
  · simp [ConsensusResult.tryResetConsensus]

end ProtoActor.Cluster
