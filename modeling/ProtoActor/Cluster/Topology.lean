import Mathlib.Data.String.Basic
import ProtoActor.Cluster.MemberList

/-!
# When two topologies are equal

`MemberSet.Equals` (`cluster/members.go`) compares topology hashes, and `TopologyHash`
(`cluster/member.go`) hashes the ids of the members in id order, concatenated with no separator
(`hashedIds`).  `getTopologyChanges` stops when the active set `Equals` the current one.  The
hash `sum64` is a parameter.

* `sortedIds_eq_of_perm`: members that list the same ids, as many times each, have one key,
  whatever their order.
* `concatenated_ids_collide`: the key forgets where one id ends, so
  `[a, bc]` and `[ab, c]` are equal topologies whatever the hash, and the member list takes a
  report of `[ab, c]` after `[a, bc]` for no change; and since the key counts repeated ids,
  `[a]` and `[a, a]`, which name one id, are not equal for a hash that tells `a` from `aa`.
-/

namespace ProtoActor.Cluster

/-! ### The key of a topology -/

variable (sum64 : List UInt8 → UInt64)

/-- The ids in the order `TopologyHash` concatenates them. -/
def sortedIds (members : List Member) : List String :=
  (sortMembers members).map Member.id

/-- The string `TopologyHash` hashes. -/
def hashedIds (members : List Member) : String :=
  String.join (sortedIds members)

/-- The bytes `TopologyHash` hands to `murmur3.Sum64`. -/
def topologyBytes (members : List Member) : List UInt8 :=
  (hashedIds members).toByteArray.data.toList

theorem topologyHash_eq (members : List Member) :
    topologyHash sum64 members = sum64 (topologyBytes members) :=
  rfl

theorem sortedIds_perm (members : List Member) :
    (sortedIds members).Perm (members.map Member.id) :=
  (sortMembers_perm members).map Member.id

theorem sortedIds_pairwise (members : List Member) : (sortedIds members).Pairwise (· ≤ ·) := by
  have htotal : Std.Total fun a b : Member => a.id ≤ b.id := ⟨fun a b => le_total a.id b.id⟩
  have htrans : IsTrans Member fun a b => a.id ≤ b.id := ⟨fun _ _ _ => le_trans⟩
  exact (List.pairwise_insertionSort _ members).map Member.id fun _ _ h => h

/-- Sorting only depends on the ids listed, with their multiplicities. -/
theorem sortedIds_eq_of_perm {a b : List Member} (h : (a.map Member.id).Perm (b.map Member.id)) :
    sortedIds a = sortedIds b :=
  List.Perm.eq_of_pairwise' (sortedIds_pairwise a) (sortedIds_pairwise b)
    (((sortedIds_perm a).trans h).trans (sortedIds_perm b).symm)

/-- `NewMemberSet` sorts its members before it hashes them, which changes no key. -/
theorem newMemberSet_topologyHash (members : List Member) :
    (newMemberSet sum64 members).topologyHash = topologyHash sum64 members := by
  show topologyHash sum64 (sortMembers members) = topologyHash sum64 members
  rw [topologyHash_eq, topologyHash_eq, topologyBytes, topologyBytes, hashedIds, hashedIds,
    sortedIds_eq_of_perm ((sortMembers_perm members).map Member.id)]

theorem equals_newMemberSet (a b : List Member) :
    (newMemberSet sum64 a).equals (newMemberSet sum64 b) = true ↔
      topologyHash sum64 a = topologyHash sum64 b := by
  rw [MemberSet.equals, newMemberSet_topologyHash, newMemberSet_topologyHash, beq_iff_eq]

/-! ### Ids that run together -/

/-- The hash of the active members is the hash of the reported members that are not blocked. -/
theorem activeMembers_topologyHash (ml : MemberList) (members : List Member) :
    (ml.activeMembers sum64 members).topologyHash =
      sum64 (topologyBytes (members.filter fun m => !ml.blockList.contains m.id)) := by
  have hperm : ((((newMemberSet sum64 members).members.filter
      fun m => !ml.blockList.contains m.id)).map Member.id).Perm
      ((members.filter fun m => !ml.blockList.contains m.id).map Member.id) :=
    (((newMemberSet_perm sum64 members).filter _).map Member.id)
  rw [MemberList.activeMembers, MemberSet.exceptIds, newMemberSet_topologyHash, topologyHash_eq,
    topologyBytes, topologyBytes, hashedIds, hashedIds, sortedIds_eq_of_perm hperm]

/-- A member of kind `"k"` with the given id, at a host of the same name. -/
def memberNamed (id : String) : Member :=
  ⟨id, 8090, id, ["k"]⟩

/-- The member list after the provider reports `a` and `bc`. -/
def collidingTopology : MemberList :=
  (MemberList.new sum64 []).updateClusterTopology sum64 [memberNamed "a", memberNamed "bc"]

/-- The report of `a` and `bc` changes the new member list when the hash tells its key from the
empty one. -/
theorem collidingTopology_members
    (hempty : sum64 (topologyBytes []) ≠ sum64 (topologyBytes [memberNamed "a", memberNamed "bc"])) :
    (collidingTopology sum64).members =
      (MemberList.new sum64 []).activeMembers sum64 [memberNamed "a", memberNamed "bc"] := by
  have hchanged : ((MemberList.new sum64 []).activeMembers sum64
      [memberNamed "a", memberNamed "bc"]).equals (MemberList.new sum64 []).members = false := by
    rw [Bool.eq_false_iff]
    intro h
    rw [MemberSet.equals, beq_iff_eq, activeMembers_topologyHash] at h
    exact hempty (h.symm.trans rfl)
  rw [collidingTopology, MemberList.updateClusterTopology_of_changed sum64 hchanged]
  exact (MemberList.applyTopologyChanges_frame _ _).1

/-- No member left the new member list, so nothing is blocked after the report of `a` and
`bc`, whatever the hash. -/
theorem collidingTopology_blockList : (collidingTopology sum64).blockList = [] := by
  unfold collidingTopology
  cases h : ((MemberList.new sum64 []).activeMembers sum64
      [memberNamed "a", memberNamed "bc"]).equals (MemberList.new sum64 []).members
  · rw [MemberList.updateClusterTopology_of_changed sum64 h,
      (MemberList.applyTopologyChanges_frame _ _).2.1]
    rfl
  · rw [MemberList.updateClusterTopology_of_equals sum64 h]
    rfl

theorem concatenated_ids_collide
    (hempty : sum64 (topologyBytes []) ≠ sum64 (topologyBytes [memberNamed "a", memberNamed "bc"]))
    (hrepeat :
      sum64 (topologyBytes [memberNamed "a"]) ≠ sum64 (topologyBytes [memberNamed "a", memberNamed "a"])) :
    (newMemberSet sum64 [memberNamed "a", memberNamed "bc"]).equals
        (newMemberSet sum64 [memberNamed "ab", memberNamed "c"]) = true ∧
      (newMemberSet sum64 [memberNamed "a"]).equals
        (newMemberSet sum64 [memberNamed "a", memberNamed "a"]) = false ∧
      ((collidingTopology sum64).getTopologyChanges sum64
        [memberNamed "ab", memberNamed "c"]).isNone = true ∧
      (collidingTopology sum64).members.ids = ["a", "bc"] ∧
      ((collidingTopology sum64).activeMembers sum64
        [memberNamed "ab", memberNamed "c"]).ids = ["ab", "c"] := by
  -- both reports hash the key "abc"
  have hids : hashedIds [memberNamed "a", memberNamed "bc"] =
      hashedIds [memberNamed "ab", memberNamed "c"] := by
    decide
  have hkey : topologyBytes [memberNamed "a", memberNamed "bc"] =
      topologyBytes [memberNamed "ab", memberNamed "c"] := by
    rw [topologyBytes, topologyBytes, hids]
  have hmembers := collidingTopology_members sum64 hempty
  have hblock := collidingTopology_blockList sum64
  refine ⟨?_, ?_, ?_, ?_, ?_⟩
  · rw [equals_newMemberSet, topologyHash_eq, topologyHash_eq, hkey]
  · rw [Bool.eq_false_iff]
    intro h
    rw [equals_newMemberSet, topologyHash_eq, topologyHash_eq] at h
    exact hrepeat h
  · -- the report of `ab` and `c` hashes the key of the current member set
    have hsame : ((collidingTopology sum64).activeMembers sum64
        [memberNamed "ab", memberNamed "c"]).equals (collidingTopology sum64).members = true := by
      rw [hmembers, MemberSet.equals, beq_iff_eq, activeMembers_topologyHash,
        activeMembers_topologyHash, hblock]
      exact congrArg sum64 hkey.symm
    simp only [MemberList.getTopologyChanges, hsame, if_true, Option.isNone_none]
  · rw [hmembers]
    rfl
  · rw [MemberList.activeMembers, hblock]
    rfl

/-- Counting bytes tells the keys apart: the collision happens with any such hash. -/
theorem concatenated_ids_collide_byteCount :
    MemberList.byteCount (topologyBytes []) ≠
        MemberList.byteCount (topologyBytes [memberNamed "a", memberNamed "bc"]) ∧
      MemberList.byteCount (topologyBytes [memberNamed "a"]) ≠
        MemberList.byteCount (topologyBytes [memberNamed "a", memberNamed "a"]) ∧
      (newMemberSet MemberList.byteCount [memberNamed "a", memberNamed "bc"]).equals
          (newMemberSet MemberList.byteCount [memberNamed "ab", memberNamed "c"]) = true ∧
      (newMemberSet MemberList.byteCount [memberNamed "a"]).equals
          (newMemberSet MemberList.byteCount [memberNamed "a", memberNamed "a"]) = false ∧
      ((collidingTopology MemberList.byteCount).getTopologyChanges MemberList.byteCount
          [memberNamed "ab", memberNamed "c"]).isNone = true ∧
      (collidingTopology MemberList.byteCount).members.ids = ["a", "bc"] ∧
      ((collidingTopology MemberList.byteCount).activeMembers MemberList.byteCount
          [memberNamed "ab", memberNamed "c"]).ids = ["ab", "c"] := by
  have hempty : MemberList.byteCount (topologyBytes []) ≠
      MemberList.byteCount (topologyBytes [memberNamed "a", memberNamed "bc"]) := by
    decide
  have hrepeat : MemberList.byteCount (topologyBytes [memberNamed "a"]) ≠
      MemberList.byteCount (topologyBytes [memberNamed "a", memberNamed "a"]) := by
    decide
  exact ⟨hempty, hrepeat, concatenated_ids_collide MemberList.byteCount hempty hrepeat⟩

end ProtoActor.Cluster
