import Mathlib.Data.List.Perm.Basic
import Mathlib.Data.List.Nodup
import Mathlib.Data.Int.Notation
import ProtoActor.Transition.Run

/-!
# Leadership in the ZooKeeper provider

`cluster/clusterproviders/zk`.  Every member registers an ephemeral sequential node; `fetchNodes`
reads the children, stores the sequence `parseSeq` finds in each path with `SetMeta`, and keeps
one node per address with `uniqNodes`.  `updateLeadership` then makes the provider `Leader` when
`isLeaderOf` holds of the list.  `isLeaderOf` takes the least positive sequence of the list, or `0`
when there is none (a `0` in its minimum search means "unset"), and answers whether the provider's
own node carries it; a list of one node is led by that node.

* `isMinSeq_foldl_minSeqStep`: for non-negative sequences the minimum search finds the least
  positive sequence, or `0` (`IsMinSeq`).
* `isLeaderOf_iff_of_two_le`: in a list of two nodes or more a member leads exactly when its
  sequence is that minimum.
-/

namespace ProtoActor.Cluster.Zk

open ProtoActor.Transition

/-- A zk `Node`, with the fields `isLeaderOf` and `uniqNodes` read, and the `"seq"` entry of its
`Meta`.  `SetMeta(metaKeySeq, intToStr(seq))` stores the sequence `parseSeq` read and `GetSeq`
reads it back with `strToInt`; on the integers these are inverse, so the entry is kept as the
integer. -/
structure Node where
  id : String
  host : String
  address : String
  port : ℤ
  seq : Option ℤ
  deriving DecidableEq, Repr

/-- `Node.GetSeq`: `0` when the entry is missing. -/
def Node.getSeq (n : Node) : ℤ := n.seq.getD 0

/-- `Node.GetAddressString`: `host:port`, with `Address` for an empty `Host`. -/
def Node.getAddressString (n : Node) : String :=
  (if n.host = "" then n.address else n.host) ++ ":" ++ toString n.port

/-- One turn of the minimum search of `isLeaderOf`:
`if seq := node.GetSeq(); (seq > 0 && seq < minSeq) || minSeq == 0 { minSeq = seq }`. -/
def minSeqStep (minSeq : ℤ) (node : Node) : ℤ :=
  let seq := node.getSeq
  if (0 < seq ∧ seq < minSeq) ∨ minSeq = 0 then seq else minSeq

/-- `Provider.isLeaderOf`, for the provider's own node `self` (`nil` before it registered). -/
def isLeaderOf (self : Option Node) (ns : List Node) : Bool :=
  match self with
  | none => false
  | some s =>
    -- the single-node shortcut
    if ns.length = 1 ∧ ns.head?.map Node.id = some s.id then true
    else
      let minSeq := ns.foldl minSeqStep 0
      -- the first node with self's `ID` answers, by self's own sequence
      if ns.any (·.id == s.id) then decide (0 < minSeq ∧ minSeq = s.getSeq) else false

/-- One turn of `uniqNodes`: a node whose address is already taken replaces the node there when
its sequence is higher. -/
def uniqNodesStep (acc : List Node) (node : Node) : List Node :=
  match acc.find? (·.getAddressString == node.getAddressString) with
  | some n =>
    if n.getSeq < node.getSeq then
      acc.map fun m => if m.getAddressString = node.getAddressString then node else m
    else acc
  | none => acc ++ [node]

/-- `Provider.uniqNodes`: one node per address, the one of highest sequence.  Go collects them in
a map and lists the map in its own order; here they come in the order their addresses first
appear. -/
def uniqNodes (nodes : List Node) : List Node :=
  nodes.foldl uniqNodesStep []

/-- The roles of a provider. -/
inductive Role
  | follower
  | leader
  deriving DecidableEq, Repr

/-- A provider, with the fields `updateLeadership` reads and writes. -/
structure Provider where
  self : Option Node
  role : Role
  deriving DecidableEq, Repr

/-- `Provider.updateLeadership`: the provider after the call, and the role it sends on
`roleChangedChan`, if its role changed. -/
def Provider.updateLeadership (p : Provider) (ns : List Node) : Provider × Option Role :=
  let role := if isLeaderOf p.self ns then Role.leader else Role.follower
  if role ≠ p.role then ({ p with role := role }, some role) else (p, none)

/-! ### The minimum search -/

/-- `m` is what the minimum search of `isLeaderOf` finds over the sequences `seqs`: the least
positive one, or `0` when none is positive. -/
def IsMinSeq (seqs : List ℤ) (m : ℤ) : Prop :=
  (m = 0 ∧ ∀ s ∈ seqs, s ≤ 0) ∨ (0 < m ∧ m ∈ seqs ∧ ∀ s ∈ seqs, 0 < s → m ≤ s)

/-- A leading `0`, the start of the search, adds nothing. -/
theorem IsMinSeq.of_cons_zero {seqs : List ℤ} {m : ℤ} (h : IsMinSeq (0 :: seqs) m) :
    IsMinSeq seqs m := by
  rcases h with ⟨hm, hall⟩ | ⟨hpos, hmem, hmin⟩
  · exact .inl ⟨hm, fun s hs => hall s (List.mem_cons_of_mem 0 hs)⟩
  · have hmem' : m ∈ seqs := (List.mem_cons.mp hmem).resolve_left (by omega)
    exact .inr ⟨hpos, hmem', fun s hs => hmin s (List.mem_cons_of_mem 0 hs)⟩

theorem isMinSeq_singleton {m : ℤ} (hm : 0 ≤ m) : IsMinSeq [m] m := by
  by_cases h0 : m = 0
  · exact .inl ⟨h0, by simp [h0]⟩
  · exact .inr ⟨by omega, List.mem_singleton_self m, by simp⟩

/-- What one turn of the search does with a non-negative `minSeq` and sequence. -/
theorem minSeqStep_spec {m₀ : ℤ} {n : Node} (hm₀ : 0 ≤ m₀) (hn : 0 ≤ n.getSeq) :
    0 ≤ minSeqStep m₀ n ∧ (minSeqStep m₀ n = m₀ ∨ minSeqStep m₀ n = n.getSeq) ∧
      (minSeqStep m₀ n = 0 → m₀ = 0 ∧ n.getSeq = 0) ∧
      (0 < m₀ → minSeqStep m₀ n ≤ m₀) ∧ (0 < n.getSeq → minSeqStep m₀ n ≤ n.getSeq) := by
  dsimp only [minSeqStep]
  split_ifs <;> omega

/-- The step lemma of the search: the least positive of `minSeq` and the sequence is the least
positive of the new `minSeq`. -/
theorem IsMinSeq.of_minSeqStep {m₀ r : ℤ} {n : Node} {rest : List ℤ} (hm₀ : 0 ≤ m₀)
    (hn : 0 ≤ n.getSeq) (h : IsMinSeq (minSeqStep m₀ n :: rest) r) :
    IsMinSeq (m₀ :: n.getSeq :: rest) r := by
  obtain ⟨hnonneg, hwhich, hzero, hle₀, hle⟩ := minSeqStep_spec hm₀ hn
  unfold IsMinSeq at h ⊢
  simp only [List.mem_cons, forall_eq_or_imp] at h ⊢
  rcases h with ⟨hr, hm₁, hrest⟩ | ⟨hr, hmem, ⟨hm₁, hrest⟩⟩
  · have hboth := hzero (by omega)
    exact .inl ⟨hr, by omega, by omega, hrest⟩
  · have hmem' : r = m₀ ∨ r = n.getSeq ∨ r ∈ rest := by
      rcases hmem with h | h
      · omega
      · exact .inr (.inr h)
    -- the new `minSeq` is positive as soon as either of the old ones is
    refine .inr ⟨hr, hmem', fun h₀ => ?_, fun hs => ?_, hrest⟩
    · have := hm₁ (by omega)
      have := hle₀ h₀
      omega
    · have := hm₁ (by omega)
      have := hle hs
      omega

/-- The run lemma of the search: started from a non-negative `minSeq`, it finds the least
positive of that and the sequences of the nodes. -/
theorem isMinSeq_foldl_minSeqStep :
    ∀ (ns : List Node) (m₀ : ℤ), 0 ≤ m₀ → (∀ n ∈ ns, 0 ≤ n.getSeq) →
      IsMinSeq (m₀ :: ns.map Node.getSeq) (ns.foldl minSeqStep m₀)
  | [], m₀, hm₀, _ => isMinSeq_singleton hm₀
  | n :: ns, m₀, hm₀, hns => by
    have hn := hns n List.mem_cons_self
    have hnonneg := (minSeqStep_spec hm₀ hn).1
    have ih := isMinSeq_foldl_minSeqStep ns (minSeqStep m₀ n) hnonneg
      fun n' h => hns n' (List.mem_cons_of_mem n h)
    exact IsMinSeq.of_minSeqStep hm₀ hn ih

/-- The minimum `isLeaderOf` computes. -/
theorem isMinSeq_minSeq {ns : List Node} (hseq : ∀ n ∈ ns, 0 ≤ n.getSeq) :
    IsMinSeq (ns.map Node.getSeq) (ns.foldl minSeqStep 0) :=
  (isMinSeq_foldl_minSeqStep ns 0 (Int.le_refl 0) hseq).of_cons_zero

/-! ### The leader -/

/-- With distinct non-negative sequences and two nodes or more some sequence is positive, and the
search finds the node of least positive sequence. -/
theorem exists_minSeq_eq {ns : List Node} (hseq : ∀ n ∈ ns, 0 ≤ n.getSeq)
    (hnodup : (ns.map Node.getSeq).Nodup) (hlen : 2 ≤ ns.length) :
    ∃ leader ∈ ns, 0 < leader.getSeq ∧ ns.foldl minSeqStep 0 = leader.getSeq := by
  rcases isMinSeq_minSeq hseq with ⟨_, hall⟩ | ⟨hpos, hmem, _⟩
  · -- every sequence would be `0`, and the first two nodes would share it
    rcases ns with _ | ⟨a, _ | ⟨b, rest⟩⟩
    · simp at hlen
    · simp at hlen
    have ha := hall a.getSeq (by simp)
    have hb := hall b.getSeq (by simp)
    have ha' := hseq a (by simp)
    have hb' := hseq b (by simp)
    simp only [List.map_cons, List.nodup_cons, List.mem_cons, not_or] at hnodup
    exact absurd (by omega) hnodup.1.1
  · obtain ⟨leader, hl, heq⟩ := List.mem_map.mp hmem
    exact ⟨leader, hl, heq ▸ hpos, heq.symm⟩

theorem isLeaderOf_singleton {s n : Node} (h : n.id = s.id) : isLeaderOf (some s) [n] = true := by
  dsimp only [isLeaderOf]
  rw [if_pos ⟨rfl, by rw [List.head?_cons, Option.map_some, h]⟩]

/-- In a list of two nodes or more a member leads exactly when its sequence is the minimum. -/
theorem isLeaderOf_iff_of_two_le {s : Node} {ns : List Node} (hs : s ∈ ns) (hlen : 2 ≤ ns.length) :
    isLeaderOf (some s) ns = true ↔
      0 < ns.foldl minSeqStep 0 ∧ ns.foldl minSeqStep 0 = s.getSeq := by
  have hany : ns.any (·.id == s.id) = true := List.any_eq_true.mpr ⟨s, hs, beq_self_eq_true _⟩
  dsimp only [isLeaderOf]
  rw [if_neg (fun h => by omega), hany, if_pos rfl, decide_eq_true_iff]

/-- A list of distinct non-negative sequences that is not empty has exactly one leader among its
members. -/
theorem exists_unique_leader {ns : List Node} (hne : ns ≠ []) (hseq : ∀ n ∈ ns, 0 ≤ n.getSeq)
    (hnodup : (ns.map Node.getSeq).Nodup) :
    ∃ leader ∈ ns, ∀ self ∈ ns, isLeaderOf (some self) ns = true ↔ self = leader := by
  by_cases hlen : 2 ≤ ns.length
  · obtain ⟨leader, hl, hpos, hmin⟩ := exists_minSeq_eq hseq hnodup hlen
    refine ⟨leader, hl, fun self hself => ?_⟩
    rw [isLeaderOf_iff_of_two_le hself hlen, hmin]
    -- one node per sequence
    constructor
    · rintro ⟨_, heq⟩
      exact List.inj_on_of_nodup_map hnodup hself hl heq.symm
    · rintro rfl
      exact ⟨hpos, rfl⟩
  · -- a single node leads by the shortcut
    have hpos := List.length_pos_iff.mpr hne
    obtain ⟨n, rfl⟩ := List.length_eq_one_iff.mp (show ns.length = 1 by omega)
    refine ⟨n, List.mem_singleton_self n, fun self hself => ?_⟩
    rw [List.mem_singleton.mp hself]
    exact ⟨fun _ => rfl, fun _ => isLeaderOf_singleton rfl⟩

theorem zk_leader_unique_of_ne_nil (ns : List Node) (hseq : ∀ n ∈ ns, 0 ≤ n.getSeq)
    (hnodup : (ns.map Node.getSeq).Nodup) :
    (∃ leader ∈ ns, ∀ self ∈ ns, isLeaderOf (some self) ns = true ↔ self = leader) ↔ ns ≠ [] := by
  constructor
  · rintro ⟨leader, hl, _⟩ rfl
    exact List.not_mem_nil hl
  · intro hne
    exact exists_unique_leader hne hseq hnodup

/-- A view of three nodes, the first with ZooKeeper's first sequence `0`. -/
def zkView : List Node :=
  [⟨"n0", "10.0.0.1", "", 7000, some 0⟩, ⟨"n1", "10.0.0.2", "", 7000, some 5⟩,
    ⟨"n2", "10.0.0.3", "", 7000, some 3⟩]

theorem zk_leader_unique_zkView :
    (∀ n ∈ zkView, 0 ≤ n.getSeq) ∧ (zkView.map Node.getSeq).Nodup ∧
      ((∃ leader ∈ zkView, ∀ self ∈ zkView, isLeaderOf (some self) zkView = true ↔ self = leader) ↔
        zkView ≠ []) :=
  ⟨by decide, by decide, zk_leader_unique_of_ne_nil zkView (by decide) (by decide)⟩

/-- The empty view, which `updateLeadership(nil)` also passes, has no member to choose, and no
provider leads it. -/
theorem zk_empty_view_has_no_leader :
    (∀ n ∈ ([] : List Node), 0 ≤ n.getSeq) ∧ (([] : List Node).map Node.getSeq).Nodup ∧
      (¬∃ self ∈ ([] : List Node), isLeaderOf (some self) [] = true) ∧
      ∀ self : Option Node, isLeaderOf self [] = false := by
  refine ⟨by simp, by simp, by simp, fun self => ?_⟩
  cases self <;> rfl

/-! ### `uniqNodes` and the providers -/

end ProtoActor.Cluster.Zk
