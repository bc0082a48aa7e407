import Mathlib.Data.List.Sort

/-!
# Members, member sets and the block list

`cluster/member.go`, `cluster/members.go` and `remote/blocklist.go`.

A `MemberSet` is built by `NewMemberSet`: the members are copied and sorted, `TopologyHash` hashes
their concatenated ids, and an id lookup map answers `ContainsID`.  `CopySortMembers` sorts by id
descending, but `TopologyHash` then sorts the same slice by id ascending in place, so a member set
holds its members by id, ascending; `sortMembers` is that order.  Go's sort is not stable, so for
members that share an id the order is the model's choice.  Two member sets are `Equals` when
their topology hashes are.  The hash, `Sum64` of the `github.com/twmb/murmur3` package, is a
parameter `sum64` of everything that builds a member set.

The block list of the remote is a set of member ids that only grows.
-/

namespace ProtoActor.Cluster

/-- A cluster member: `Host`, `Port`, `Id` and `Kinds` of the `Member` message. -/
structure Member where
  host : String
  port : Int
  id : String
  kinds : List String
  deriving DecidableEq, Repr

namespace Member

/-- `Member.Address`: `"host:port"`. -/
def address (m : Member) : String :=
  m.host ++ ":" ++ toString m.port

/-- `Member.HasKind`. -/
def hasKind (m : Member) (kind : String) : Bool :=
  m.kinds.contains kind

end Member

/-- The order `NewMemberSet` leaves its members in: by id, ascending. -/
def sortMembers (members : List Member) : List Member :=
  members.insertionSort (fun a b => a.id ≤ b.id)

/-- `MemberSet`.  Its `lookup` map is keyed by id; `containsID` reads it off `members`. -/
structure MemberSet where
  topologyHash : UInt64
  members : List Member

section Hash

variable (sum64 : List UInt8 → UInt64)

/-- `TopologyHash`: `murmur3.Sum64` of the ids, concatenated in id order. -/
def topologyHash (members : List Member) : UInt64 :=
  sum64 (String.join ((sortMembers members).map Member.id)).toByteArray.data.toList

/-- `NewMemberSet`. -/
def newMemberSet (members : List Member) : MemberSet :=
  let members := sortMembers members
  ⟨topologyHash sum64 members, members⟩

/-- `emptyMemberSet`. -/
def emptyMemberSet : MemberSet :=
  newMemberSet sum64 []

end Hash

namespace MemberSet

/-- `MemberSet.Len`. -/
def len (ms : MemberSet) : Nat :=
  ms.members.length

/-- `MemberSet.ContainsID`: some member has the id. -/
def containsID (ms : MemberSet) (id : String) : Bool :=
  ms.members.any (·.id == id)

/-- `MemberSet.Except`: the members whose id `other` does not contain. -/
def except (sum64 : List UInt8 → UInt64) (ms other : MemberSet) : MemberSet :=
  newMemberSet sum64 (ms.members.filter fun m => !other.containsID m.id)

/-- `MemberSet.ExceptIds`: the members whose id is not among `ids`. -/
def exceptIds (sum64 : List UInt8 → UInt64) (ms : MemberSet) (ids : List String) : MemberSet :=
  newMemberSet sum64 (ms.members.filter fun m => !ids.contains m.id)

/-- `MemberSet.Equals`: the topology hashes agree. -/
def equals (ms other : MemberSet) : Bool :=
  ms.topologyHash == other.topologyHash

/-- The ids of the members, in order. -/
def ids (ms : MemberSet) : List String :=
  ms.members.map Member.id

end MemberSet

/-- `BlockList.Block`: add the ids to the blocked members. -/
def block (blockedMembers : List String) (memberIDs : List String) : List String :=
  blockedMembers ++ memberIDs

/-! ### Membership in member sets -/

theorem sortMembers_perm (members : List Member) : (sortMembers members).Perm members :=
  List.perm_insertionSort _ members

section Hash

variable (sum64 : List UInt8 → UInt64)

@[simp] theorem mem_newMemberSet {members : List Member} {m : Member} :
    m ∈ (newMemberSet sum64 members).members ↔ m ∈ members :=
  (sortMembers_perm members).mem_iff

theorem newMemberSet_perm (members : List Member) :
    (newMemberSet sum64 members).members.Perm members :=
  sortMembers_perm members

end Hash

namespace MemberSet

variable (sum64 : List UInt8 → UInt64)

@[simp] theorem containsID_eq (ms : MemberSet) (id : String) :
    ms.containsID id = decide (id ∈ ms.ids) := by
  rw [Bool.eq_iff_iff]
  simp [containsID, ids]

@[simp] theorem mem_except {ms other : MemberSet} {m : Member} :
    m ∈ (ms.except sum64 other).members ↔ m ∈ ms.members ∧ m.id ∉ other.ids := by
  simp [except]

@[simp] theorem mem_exceptIds {ms : MemberSet} {ids : List String} {m : Member} :
    m ∈ (ms.exceptIds sum64 ids).members ↔ m ∈ ms.members ∧ m.id ∉ ids := by
  simp [exceptIds]

theorem except_perm (ms other : MemberSet) :
    (ms.except sum64 other).members.Perm (ms.members.filter fun m => m.id ∉ other.ids) := by
  simpa [except] using newMemberSet_perm sum64 (ms.members.filter fun m => !other.containsID m.id)

theorem exceptIds_perm (ms : MemberSet) (ids : List String) :
    (ms.exceptIds sum64 ids).members.Perm (ms.members.filter fun m => m.id ∉ ids) := by
  simpa [exceptIds] using newMemberSet_perm sum64 (ms.members.filter fun m => !ids.contains m.id)

end MemberSet

end ProtoActor.Cluster
