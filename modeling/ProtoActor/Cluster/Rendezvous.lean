import ProtoActor.Cluster.Member
import ProtoActor.Hash.Fnv
import ProtoActor.Order.FirstMax

/-!
# Rendezvous placement

`cluster/rendezvous.go`.  `UpdateMembers` keeps the members in the order of their member set (by
id) with the bytes of each one's address; `GetByClusterIdentity` takes the members of the
identity's kind and returns, when there are several, the address of the one whose FNV-1a score
of the identity followed by its address is highest, the first such one on a tie.  The scan
starts from a best score of zero and replaces it only on a higher score.

* `getByClusterIdentity_eq`: with several members of the kind, the result is the address of the
  first member of highest score when that score is positive, and `""` when every score is zero.
* `rendezvous_zero_scores_unowned`: two members whose scores are both zero own nothing, while
  either one alone owns the identity; so adding a member can move an identity to nobody, and
  removing one can move it from nobody to the other.
* `getByIdentity_asKey`: `GetByIdentity` splits a key `AsKey` at its first `'/'`, so for a kind
  without `'/'` it owns the key as `GetByClusterIdentity` owns the identity.
-/

namespace ProtoActor.Cluster

open ProtoActor.Transition ProtoActor.Order

/-- `ClusterIdentity`. -/
structure ClusterIdentity where
  identity : String
  kind : String
  deriving DecidableEq, Repr

/-- `ClusterIdentity.AsKey`. -/
def ClusterIdentity.asKey (ci : ClusterIdentity) : String :=
  ci.kind ++ "/" ++ ci.identity

/-- `strings.SplitN(s, sep, 2)` for a one-character separator: the text before the first `sep`
and the text after it, or `s` alone when `sep` does not occur. -/
def splitN (s : String) (sep : Char) : List String :=
  match s.toList.dropWhile (· ≠ sep) with
  | [] => [s]
  | _ :: after => [String.ofList (s.toList.takeWhile (· ≠ sep)), String.ofList after]

/-- `memberData`: a member and the bytes of its address. -/
structure MemberData where
  member : Member
  hashBytes : List UInt8
  deriving DecidableEq, Repr

/-- `Rendezvous`, without its locks and the hasher it resets before each use. -/
structure Rendezvous where
  members : List MemberData
  deriving DecidableEq, Repr

namespace Rendezvous

/-- `NewRendezvous`. -/
def new : Rendezvous :=
  ⟨[]⟩

/-- `hash`: the hasher is reset, then fed the key and the node. -/
def hash (node key : List UInt8) : UInt32 :=
  Hash.Fnv.sum32a (key ++ node)

/-- `memberDataByKind`. -/
def memberDataByKind (r : Rendezvous) (kind : String) : List MemberData :=
  r.members.filter fun md => md.member.hasKind kind

/-- `UpdateMembers`: the members of `members.ToSet()`, in its order, with their address bytes.
`ToSet` is `NewMemberSet`, whose members are `sortMembers members`; the topology hash it also
computes is not read. -/
def updateMembers (_r : Rendezvous) (members : List Member) : Rendezvous :=
  ⟨(sortMembers members).map fun m => ⟨m, m.address.toByteArray.data.toList⟩⟩

/-- One turn of the loop of `GetByClusterIdentity`. -/
def maxLoop (keyBytes : List UInt8) (acc : UInt32 × Option MemberData) (node : MemberData) :
    UInt32 × Option MemberData :=
  let score := hash node.hashBytes keyBytes
  if score > acc.1 then (score, some node) else acc

/-- `GetByClusterIdentity`. -/
def getByClusterIdentity (r : Rendezvous) (ci : ClusterIdentity) : String :=
  let m := r.memberDataByKind ci.kind
  match m with
  | [] => ""
  | [node] => node.member.address
  | _ =>
    let keyBytes := ci.identity.toByteArray.data.toList
    match (runFrom (maxLoop keyBytes) (0, none) m).2 with
    | none => ""
    | some maxMember => maxMember.member.address

/-- `GetByIdentity`: the key is split at its first `'/'` into a kind and an identity; `none`
where `parts[1]` leaves the slice, a panic in Go. -/
def getByIdentity (r : Rendezvous) (identity : String) : Option String :=
  let parts := splitN identity '/'
  match parts[0]?, parts[1]? with
  | some kind, some identity => some (r.getByClusterIdentity ⟨identity, kind⟩)
  | _, _ => none

/-! ### The scan finds the first member of highest score -/

/-- The score of a member for an identity, as a number. -/
def score (keyBytes : List UInt8) (node : MemberData) : ℕ :=
  (hash node.hashBytes keyBytes).toNat

/-- One turn of the loop compares `uint32`s as the scan of `FirstMax` compares their values. -/
theorem maxLoop_toNat (keyBytes : List UInt8) (acc : UInt32 × Option MemberData)
    (node : MemberData) :
    Prod.map UInt32.toNat id (maxLoop keyBytes acc node) =
      maxStep (score keyBytes) (Prod.map UInt32.toNat id acc) node := by
  have hlt : acc.1 < hash node.hashBytes keyBytes ↔
      (Prod.map UInt32.toNat id acc).1 < score keyBytes node :=
    UInt32.lt_iff_toNat_lt
  unfold maxLoop maxStep
  -- the branch taken is the same on both sides
  by_cases h : (Prod.map UInt32.toNat id acc).1 < score keyBytes node
  · rw [if_pos (hlt.mpr h), if_pos h]
    rfl
  · rw [if_neg (mt hlt.mp h), if_neg h]

/-- The loop compares `uint32`s as the scan of `FirstMax` compares their values. -/
theorem runFrom_maxLoop (keyBytes : List UInt8) (acc : UInt32 × Option MemberData)
    (l : List MemberData) :
    Prod.map UInt32.toNat id (runFrom (maxLoop keyBytes) acc l) =
      runFrom (maxStep (score keyBytes)) (Prod.map UInt32.toNat id acc) l := by
  induction l generalizing acc with
  | nil => rfl
  | cons node l ih => rw [runFrom_cons, runFrom_cons, ih, maxLoop_toNat]

/-- With several members of the kind, the result is the address of the first member of highest
score if that score is positive, and `""` if every member scores zero. -/
theorem getByClusterIdentity_eq (r : Rendezvous) (ci : ClusterIdentity)
    (hlen : 2 ≤ (r.memberDataByKind ci.kind).length) :
    let keyBytes := ci.identity.toByteArray.data.toList
    ((∀ node ∈ r.memberDataByKind ci.kind, score keyBytes node = 0) ∧
        r.getByClusterIdentity ci = "") ∨
      ∃ x, FirstAbove (score keyBytes) 0 (r.memberDataByKind ci.kind) x ∧
        r.getByClusterIdentity ci = x.member.address := by
  intro keyBytes
  have hrun := runFrom_maxLoop keyBytes (0, none) (r.memberDataByKind ci.kind)
  -- the result reads the member the scan ends on
  have hget : r.getByClusterIdentity ci =
      match (runFrom (maxLoop keyBytes) (0, none) (r.memberDataByKind ci.kind)).2 with
      | none => ""
      | some maxMember => maxMember.member.address := by
    unfold getByClusterIdentity
    rcases hm : r.memberDataByKind ci.kind with _ | ⟨a, _ | ⟨b, rest⟩⟩
    · simp [hm] at hlen
    · simp [hm] at hlen
    · rfl
  rcases runFrom_maxStep (score keyBytes) (r.memberDataByKind ci.kind) 0 none with
    ⟨hle, hend⟩ | ⟨x, hx, hend⟩
  · refine .inl ⟨fun node hn => Nat.le_zero.mp (hle node hn), ?_⟩
    have h2 := congrArg Prod.snd (hrun.trans hend)
    simp only [Prod.map, id] at h2
    rw [hget, h2]
  · refine .inr ⟨x, hx, ?_⟩
    have h2 := congrArg Prod.snd (hrun.trans hend)
    simp only [Prod.map, id] at h2
    rw [hget, h2]

/-! ### Keys split back into their identity -/

/-- The key of an identity splits back into its kind and identity when the kind has no `'/'`. -/
theorem splitN_asKey {ci : ClusterIdentity} (h : '/' ∉ ci.kind.toList) :
    splitN ci.asKey '/' = [ci.kind, ci.identity] := by
  have hkind : ∀ c ∈ ci.kind.toList, decide (c ≠ '/') = true :=
    fun c hc => decide_eq_true fun heq => h (heq ▸ hc)
  have hsep : ("/" : String).toList = ['/'] := by decide
  have hkey : ci.asKey.toList = ci.kind.toList ++ '/' :: ci.identity.toList := by
    rw [ClusterIdentity.asKey, String.toList_append, String.toList_append, hsep,
      List.append_assoc, List.singleton_append]
  -- the first `'/'` is the one `AsKey` put after the kind
  have hdrop : ci.asKey.toList.dropWhile (· ≠ '/') = '/' :: ci.identity.toList := by
    rw [hkey, List.dropWhile_append_of_pos hkind]
    simp
  have htake : ci.asKey.toList.takeWhile (· ≠ '/') = ci.kind.toList := by
    rw [hkey, List.takeWhile_append_of_pos hkind]
    simp
  rw [splitN, hdrop]
  dsimp only
  rw [htake, String.ofList_toList, String.ofList_toList]

/-- For a kind without `'/'`, the owner of a key is the owner of its identity. -/
theorem getByIdentity_asKey (r : Rendezvous) {ci : ClusterIdentity} (h : '/' ∉ ci.kind.toList) :
    r.getByIdentity ci.asKey = some (r.getByClusterIdentity ci) := by
  rw [getByIdentity, splitN_asKey h]
  rfl

end Rendezvous

/-! ### Two members that score zero -/

/-- A member of kind `"k"` whose address scores zero for the identity `"x"`. -/
def zeroScoreA : Member :=
  ⟨"h41562", 65040, "a", ["k"]⟩

/-- Another member of kind `"k"` whose address scores zero for the identity `"x"`. -/
def zeroScoreB : Member :=
  ⟨"h344440", 51222, "b", ["k"]⟩

theorem rendezvous_zero_scores_unowned :
    Rendezvous.hash zeroScoreA.address.toByteArray.data.toList "x".toByteArray.data.toList = 0 ∧
      Rendezvous.hash zeroScoreB.address.toByteArray.data.toList
        "x".toByteArray.data.toList = 0 ∧
      (Rendezvous.new.updateMembers [zeroScoreA, zeroScoreB]).getByClusterIdentity ⟨"x", "k"⟩ =
        "" ∧
      (Rendezvous.new.updateMembers [zeroScoreA]).getByClusterIdentity ⟨"x", "k"⟩ =
        zeroScoreA.address := by
  -- both members score zero, so the scan keeps its starting score and nobody owns the identity
  have hlen : 2 ≤ ((Rendezvous.new.updateMembers [zeroScoreA, zeroScoreB]).memberDataByKind
      "k").length := by decide
  have hzero : ∀ node ∈ (Rendezvous.new.updateMembers [zeroScoreA, zeroScoreB]).memberDataByKind
      "k", Rendezvous.score "x".toByteArray.data.toList node = 0 := by decide
  have hnone : (Rendezvous.new.updateMembers [zeroScoreA, zeroScoreB]).getByClusterIdentity
      ⟨"x", "k"⟩ = "" := by
    rcases Rendezvous.getByClusterIdentity_eq _ ⟨"x", "k"⟩ hlen with ⟨-, h⟩ | ⟨x, hx, -⟩
    · exact h
    · have hmem := hx.mem
      obtain ⟨-, -, -, hpos, -⟩ := hx
      exact absurd (hzero x hmem) (Nat.pos_iff_ne_zero.mp hpos)
  exact ⟨by decide, by decide, hnone, by decide⟩

end ProtoActor.Cluster
