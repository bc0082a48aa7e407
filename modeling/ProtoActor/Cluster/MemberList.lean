import ProtoActor.Cluster.Member
import ProtoActor.Transition.Run

/-!
# The member list

`cluster/member_list.go` and the default `simpleMemberStrategy` of `cluster/member_strategy.go`.

`UpdateClusterTopology` receives the members the cluster provider reports.  `getTopologyChanges`
drops the blocked ids (`ExceptIds`), and stops there when the result `Equals` the current member
set (same topology hash).  Otherwise the members that left are blocked, `members` becomes the
active set, each member that left is removed from the strategy of each of its kinds and its
endpoint is terminated, each member that joined is added to the strategy of each of its kinds
(created on first use), and the `ClusterTopology` is published.

The model's state holds the member set, the strategies by kind, the block list of the remote and
the events published on the event stream; the inputs are the provider's member lists and
additions to the block list, interleaved in any order.

Main results:

* `updateClusterTopology_published`: a call that is not stopped by `Equals` sets the member set to
  the active members, none of them blocked, and publishes their topology with `Joined` the active
  members whose id was not a member and `Left` the members whose id is not active.
* `run_leftBeforeJoined`: over every run, no member id of a published `Left` set is in a later
  published `Joined` set.
* `run_strategies`: over every run whose reported members are consistent (an id names one
  member, and no member lists a kind twice) and whose reports list each address once, the
  strategy of every kind holds exactly the members of that kind, up to order.  A member may
  restart at the address of one that left.

`topology_updates_keep_invariants` gathers the three, for every hash `sum64`.  Without its
hypotheses the last fails: `RemoveMember` finds the member to remove by address, so of two members
at one address in one report it may remove the wrong one
(`blocked_member_kept_and_live_member_dropped`).  Between two reports the member set may also hold
an id blocked since the last one.
-/

namespace ProtoActor.Cluster

/-- `ClusterTopology` as `getTopologyChanges` fills it. -/
structure ClusterTopology where
  topologyHash : UInt64
  members : List Member
  left : List Member
  joined : List Member
  deriving DecidableEq, Repr

/-- What the member list publishes on the event stream. -/
inductive MemberListEvent
  | topology (t : ClusterTopology)
  | endpointTerminated (address : String)
  deriving DecidableEq, Repr

/-- The topology an event publishes, if it is one. -/
def MemberListEvent.topology? : MemberListEvent → Option ClusterTopology
  | .topology t => some t
  | .endpointTerminated _ => none

/-- `simpleMemberStrategy`, by its member list (the round robin and rendezvous it keeps beside
it are indexes over that list). -/
structure SimpleMemberStrategy where
  members : List Member
  deriving DecidableEq, Repr

namespace SimpleMemberStrategy

/-- `newDefaultMemberStrategy`. -/
def new : SimpleMemberStrategy :=
  ⟨[]⟩

/-- `AddMember`. -/
def addMember (m : SimpleMemberStrategy) (member : Member) : SimpleMemberStrategy :=
  ⟨m.members ++ [member]⟩

/-- `RemoveMember`: remove the first member with the same address. -/
def removeMember (m : SimpleMemberStrategy) (member : Member) : SimpleMemberStrategy :=
  ⟨m.members.eraseP fun mb => mb.address == member.address⟩

/-- `GetAllMembers`. -/
def getAllMembers (m : SimpleMemberStrategy) : List Member :=
  m.members

end SimpleMemberStrategy

/-- `MemberList`, with the block list of the remote and what it has published. -/
structure MemberList where
  members : MemberSet
  memberStrategyByKind : String → Option SimpleMemberStrategy
  blockList : List String
  events : List MemberListEvent

/-- What `getTopologyChanges` returns when something changed. -/
structure TopologyChanges where
  topology : ClusterTopology
  active : MemberSet
  joined : MemberSet
  left : MemberSet

/-- The inputs of a member list: a provider's report, or ids added to the block list (by the
gossip of another member's blocked set, or by anyone else). -/
inductive MemberListInput
  | updateClusterTopology (members : List Member)
  | block (memberIDs : List String)
  deriving DecidableEq, Repr

/-- The members an input reports. -/
def MemberListInput.reported : MemberListInput → List Member
  | .updateClusterTopology members => members
  | .block _ => []

/-- An input reports each address at most once. -/
def MemberListInput.AddressesNodup : MemberListInput → Prop
  | .updateClusterTopology members => (members.map Member.address).Nodup
  | .block _ => True

/-- Removing the first element with the key of `a` removes `a`, when no other element has its
key. -/
theorem eraseP_key_eq_erase {α β : Type} [DecidableEq α] [DecidableEq β] (f : α → β)
    {a : α} : ∀ {l : List α}, (∀ x ∈ l, f x = f a → x = a) →
      l.eraseP (fun x => f x == f a) = l.erase a
  | [], _ => rfl
  | x :: l, h => by
    by_cases hx : x = a
    · subst hx
      simp
    · have hfx : f x ≠ f a := fun hf => hx (h x List.mem_cons_self hf)
      rw [List.eraseP_cons, List.erase_cons, eraseP_key_eq_erase f
        (fun y hy => h y (List.mem_cons_of_mem x hy)), beq_false_of_ne hfx, cond_false]
      simp [hx]

namespace MemberList

variable (sum64 : List UInt8 → UInt64)

/-- `NewMemberList`, over a remote whose block list holds `blocked`. -/
def new (blocked : List String) : MemberList :=
  ⟨emptyMemberSet sum64, fun _ => none, blocked, []⟩

/-- Publish an event. -/
def publish (ml : MemberList) (e : MemberListEvent) : MemberList :=
  { ml with events := ml.events ++ [e] }

/-- Add `joiningMember` to the strategy of `kind`, creating the strategy first if there is none. -/
def joinKind (joiningMember : Member) (ml : MemberList) (kind : String) : MemberList :=
  let strategy := (ml.memberStrategyByKind kind).getD SimpleMemberStrategy.new
  { ml with
    memberStrategyByKind :=
      Function.update ml.memberStrategyByKind kind (some (strategy.addMember joiningMember)) }

/-- `memberJoin`. -/
def memberJoin (ml : MemberList) (joiningMember : Member) : MemberList :=
  joiningMember.kinds.foldl (joinKind joiningMember) ml

/-- Remove `leavingMember` from the strategy of `kind`, if there is one. -/
def leaveKind (leavingMember : Member) (ml : MemberList) (kind : String) : MemberList :=
  match ml.memberStrategyByKind kind with
  | none => ml
  | some strategy =>
    { ml with
      memberStrategyByKind :=
        Function.update ml.memberStrategyByKind kind (some (strategy.removeMember leavingMember)) }

/-- `memberLeave`. -/
def memberLeave (ml : MemberList) (leavingMember : Member) : MemberList :=
  leavingMember.kinds.foldl (leaveKind leavingMember) ml

/-- `TerminateMember`: publish the `EndpointTerminatedEvent` of the member's address. -/
def terminateMember (ml : MemberList) (m : Member) : MemberList :=
  ml.publish (.endpointTerminated m.address)

/-- The reported members without the blocked ids: `active` in `getTopologyChanges`. -/
def activeMembers (ml : MemberList) (members : List Member) : MemberSet :=
  (newMemberSet sum64 members).exceptIds sum64 ml.blockList

/-- `getTopologyChanges`: `none` when nothing changed (its `unchanged` result). -/
def getTopologyChanges (ml : MemberList) (members : List Member) : Option TopologyChanges :=
  let active := ml.activeMembers sum64 members
  if active.equals ml.members then none
  else
    let left := ml.members.except sum64 active
    let joined := active.except sum64 ml.members
    some ⟨⟨active.topologyHash, active.members, left.members, joined.members⟩, active, joined, left⟩

/-- The body of `UpdateClusterTopology` once something changed: block the ids that left and
take the active set, then `memberLeave` and `TerminateMember` each member that left, then
`memberJoin` each member that joined, then publish the topology. -/
def applyTopologyChanges (ml : MemberList) (changes : TopologyChanges) : MemberList :=
  let blocked := { ml with
    blockList := block ml.blockList (changes.left.members.map Member.id)
    members := changes.active }
  let left := changes.left.members.foldl (fun ml m => (ml.memberLeave m).terminateMember m) blocked
  let joined := changes.joined.members.foldl memberJoin left
  joined.publish (.topology changes.topology)

/-- `UpdateClusterTopology`: return at once when nothing changed. -/
def updateClusterTopology (ml : MemberList) (members : List Member) : MemberList :=
  (ml.getTopologyChanges sum64 members).elim ml ml.applyTopologyChanges

/-- One input. -/
def step (ml : MemberList) : MemberListInput → MemberList
  | .updateClusterTopology members => ml.updateClusterTopology sum64 members
  | .block memberIDs => { ml with blockList := block ml.blockList memberIDs }

/-- `GetAllMembers` of the strategy of `kind`, with none for a kind that has no strategy. -/
def strategyMembers (ml : MemberList) (kind : String) : List Member :=
  ((ml.memberStrategyByKind kind).map SimpleMemberStrategy.getAllMembers).getD []

/-- The topologies published so far, in order. -/
def topologies (ml : MemberList) : List ClusterTopology :=
  ml.events.filterMap MemberListEvent.topology?

/-! ### The strategies, one kind at a time -/

@[simp] theorem strategyMembers_publish (ml : MemberList) (e : MemberListEvent) (k : String) :
    (ml.publish e).strategyMembers k = ml.strategyMembers k :=
  rfl

theorem strategyMembers_joinKind (m : Member) (ml : MemberList) (kind k : String) :
    (joinKind m ml kind).strategyMembers k =
      if kind = k then ml.strategyMembers k ++ [m] else ml.strategyMembers k := by
  by_cases h : kind = k
  · subst h
    cases hs : ml.memberStrategyByKind kind <;>
      simp [joinKind, strategyMembers, hs, SimpleMemberStrategy.addMember,
        SimpleMemberStrategy.getAllMembers, SimpleMemberStrategy.new]
  · simp [joinKind, strategyMembers, h, Function.update_of_ne (Ne.symm h)]

theorem strategyMembers_leaveKind (m : Member) (ml : MemberList) (kind k : String) :
    (leaveKind m ml kind).strategyMembers k =
      if kind = k then (ml.strategyMembers k).eraseP (·.address == m.address)
      else ml.strategyMembers k := by
  unfold leaveKind
  cases hs : ml.memberStrategyByKind kind with
  | none =>
    -- no strategy for `kind`: nothing to remove, and none is created
    by_cases h : kind = k
    · subst h; simp [strategyMembers, hs]
    · simp [h]
  | some strategy =>
    by_cases h : kind = k
    · subst h
      simp [strategyMembers, hs, SimpleMemberStrategy.removeMember,
        SimpleMemberStrategy.getAllMembers]
    · simp [strategyMembers, h, Function.update_of_ne (Ne.symm h)]

/-- `memberJoin` appends the member once to the strategy of each of its kinds. -/
theorem strategyMembers_memberJoin (ml : MemberList) (m : Member) (hm : m.kinds.Nodup)
    (k : String) :
    (ml.memberJoin m).strategyMembers k =
      ml.strategyMembers k ++ if m.hasKind k then [m] else [] := by
  -- over any list of kinds, the member is appended once per occurrence of `k`
  have hfold : ∀ (ks : List String) (ml : MemberList),
      (ks.foldl (joinKind m) ml).strategyMembers k =
        ml.strategyMembers k ++ List.replicate (ks.count k) m := by
    intro ks
    induction ks with
    | nil => simp
    | cons kind ks ih =>
      intro ml
      rw [List.foldl_cons, ih, strategyMembers_joinKind, List.count_cons]
      by_cases h : kind = k
      · simp [h, List.replicate_succ]
      · simp [h]
  rw [memberJoin, hfold]
  by_cases hk : k ∈ m.kinds
  · simp [Member.hasKind, hk, List.count_eq_one_of_mem hm hk]
  · simp [Member.hasKind, hk, List.count_eq_zero_of_not_mem hk]

/-- `memberLeave` removes the first member with the same address from the strategy of each of
its kinds. -/
theorem strategyMembers_memberLeave (ml : MemberList) (m : Member) (hm : m.kinds.Nodup)
    (k : String) :
    (ml.memberLeave m).strategyMembers k =
      if m.hasKind k then (ml.strategyMembers k).eraseP (·.address == m.address)
      else ml.strategyMembers k := by
  -- over any list of kinds without `k`, nothing changes for `k`
  have hskip : ∀ (ks : List String) (ml : MemberList), k ∉ ks →
      (ks.foldl (leaveKind m) ml).strategyMembers k = ml.strategyMembers k := by
    intro ks
    induction ks with
    | nil => simp
    | cons kind ks ih =>
      intro ml hk
      rw [List.foldl_cons, ih _ (fun h => hk (List.mem_cons_of_mem kind h)),
        strategyMembers_leaveKind, if_neg (fun h : kind = k => hk (h ▸ List.mem_cons_self))]
  -- over a list of kinds with `k` once, the one removal for `k` happens
  have hone : ∀ (ks : List String) (ml : MemberList), ks.Nodup → k ∈ ks →
      (ks.foldl (leaveKind m) ml).strategyMembers k =
        (ml.strategyMembers k).eraseP (·.address == m.address) := by
    intro ks
    induction ks with
    | nil => simp
    | cons kind ks ih =>
      intro ml hks hk
      rw [List.foldl_cons]
      rcases List.nodup_cons.mp hks with ⟨hkind, hks⟩
      by_cases h : kind = k
      · subst h
        rw [hskip ks _ hkind, strategyMembers_leaveKind, if_pos rfl]
      · rw [ih _ hks (List.mem_of_ne_of_mem (Ne.symm h) hk), strategyMembers_leaveKind, if_neg h]
  unfold memberLeave
  by_cases hk : k ∈ m.kinds
  · simp only [Member.hasKind, List.contains_iff_mem, hk, if_true]
    exact hone m.kinds ml hm hk
  · simp only [Member.hasKind, List.contains_iff_mem, hk, if_false]
    exact hskip m.kinds ml hk

/-! ### What an update does to the rest of the state -/

/-- Joining touches only the strategies. -/
theorem memberJoin_frame (ml : MemberList) (m : Member) :
    (ml.memberJoin m).members = ml.members ∧ (ml.memberJoin m).blockList = ml.blockList ∧
      (ml.memberJoin m).events = ml.events := by
  unfold memberJoin
  induction m.kinds generalizing ml with
  | nil => simp
  | cons kind ks ih => simpa [joinKind] using ih (joinKind m ml kind)

/-- Leaving touches only the strategies. -/
theorem memberLeave_frame (ml : MemberList) (m : Member) :
    (ml.memberLeave m).members = ml.members ∧ (ml.memberLeave m).blockList = ml.blockList ∧
      (ml.memberLeave m).events = ml.events := by
  unfold memberLeave
  induction m.kinds generalizing ml with
  | nil => simp
  | cons kind ks ih =>
    rw [List.foldl_cons]
    obtain ⟨h₁, h₂, h₃⟩ := ih (leaveKind m ml kind)
    refine ⟨h₁.trans ?_, h₂.trans ?_, h₃.trans ?_⟩ <;>
      unfold leaveKind <;> cases ml.memberStrategyByKind kind <;> rfl

/-- The members that join: only the strategies change. -/
theorem joins_frame (js : List Member) (ml : MemberList) :
    (js.foldl memberJoin ml).members = ml.members ∧
      (js.foldl memberJoin ml).blockList = ml.blockList ∧
      (js.foldl memberJoin ml).events = ml.events := by
  induction js generalizing ml with
  | nil => simp
  | cons m js ih =>
    obtain ⟨h₁, h₂, h₃⟩ := memberJoin_frame ml m
    obtain ⟨h₁', h₂', h₃'⟩ := ih (ml.memberJoin m)
    rw [List.foldl_cons]
    exact ⟨h₁'.trans h₁, h₂'.trans h₂, h₃'.trans h₃⟩

/-- The members that leave: the strategies change, and one `EndpointTerminatedEvent` is published
per member. -/
theorem leaves_frame (ls : List Member) (ml : MemberList) :
    let ml' := ls.foldl (fun ml m => (ml.memberLeave m).terminateMember m) ml
    ml'.members = ml.members ∧ ml'.blockList = ml.blockList ∧
      ml'.events = ml.events ++ ls.map fun m => .endpointTerminated m.address := by
  induction ls generalizing ml with
  | nil => simp
  | cons m ls ih =>
    obtain ⟨h₁, h₂, h₃⟩ := memberLeave_frame ml m
    obtain ⟨h₁', h₂', h₃'⟩ := ih ((ml.memberLeave m).terminateMember m)
    refine ⟨h₁'.trans h₁, h₂'.trans h₂, ?_⟩
    rw [List.foldl_cons, h₃']
    simp [terminateMember, publish, h₃]

theorem joins_strategyMembers (js : List Member) (ml : MemberList)
    (hjs : ∀ m ∈ js, m.kinds.Nodup) (k : String) :
    (js.foldl memberJoin ml).strategyMembers k = ml.strategyMembers k ++ js.filter (·.hasKind k) := by
  induction js generalizing ml with
  | nil => simp
  | cons m js ih =>
    rw [List.foldl_cons, ih _ (fun m' h => hjs m' (List.mem_cons_of_mem m h)),
      strategyMembers_memberJoin ml m (hjs m List.mem_cons_self), List.filter_cons]
    split <;> simp

theorem leaves_strategyMembers (ls : List Member) (ml : MemberList)
    (hls : ∀ m ∈ ls, m.kinds.Nodup) (k : String) :
    (ls.foldl (fun ml m => (ml.memberLeave m).terminateMember m) ml).strategyMembers k =
      ls.foldl (fun S m => if m.hasKind k then S.eraseP (·.address == m.address) else S)
        (ml.strategyMembers k) := by
  induction ls generalizing ml with
  | nil => rfl
  | cons m ls ih =>
    rw [List.foldl_cons, ih _ (fun m' h => hls m' (List.mem_cons_of_mem m h)), List.foldl_cons]
    congr 1
    exact strategyMembers_memberLeave ml m (hls m List.mem_cons_self) k

/-- `UpdateClusterTopology` when the active set `Equals` the member set: nothing happens. -/
theorem updateClusterTopology_of_equals {ml : MemberList} {members : List Member}
    (h : (ml.activeMembers sum64 members).equals ml.members = true) :
    ml.updateClusterTopology sum64 members = ml := by
  rw [updateClusterTopology, getTopologyChanges, if_pos h, Option.elim_none]

/-- `UpdateClusterTopology` when the active set differs. -/
theorem updateClusterTopology_of_changed {ml : MemberList} {members : List Member}
    (h : (ml.activeMembers sum64 members).equals ml.members = false) :
    ml.updateClusterTopology sum64 members =
      ml.applyTopologyChanges
        ⟨⟨(ml.activeMembers sum64 members).topologyHash, (ml.activeMembers sum64 members).members,
          (ml.members.except sum64 (ml.activeMembers sum64 members)).members,
          ((ml.activeMembers sum64 members).except sum64 ml.members).members⟩,
        ml.activeMembers sum64 members, (ml.activeMembers sum64 members).except sum64 ml.members,
        ml.members.except sum64 (ml.activeMembers sum64 members)⟩ := by
  rw [updateClusterTopology, getTopologyChanges, if_neg (by simp [h]), Option.elim_some]

theorem applyTopologyChanges_frame (ml : MemberList) (c : TopologyChanges) :
    (ml.applyTopologyChanges c).members = c.active ∧
      (ml.applyTopologyChanges c).blockList = block ml.blockList (c.left.members.map Member.id) ∧
      (ml.applyTopologyChanges c).events =
        ml.events ++ c.left.members.map (fun m => .endpointTerminated m.address) ++
          [.topology c.topology] := by
  obtain ⟨hj₁, hj₂, hj₃⟩ := joins_frame c.joined.members
    (c.left.members.foldl (fun ml m => (ml.memberLeave m).terminateMember m)
      { ml with blockList := block ml.blockList (c.left.members.map Member.id), members := c.active })
  obtain ⟨hl₁, hl₂, hl₃⟩ := leaves_frame c.left.members
    { ml with blockList := block ml.blockList (c.left.members.map Member.id), members := c.active }
  refine ⟨hj₁.trans hl₁, hj₂.trans hl₂, ?_⟩
  simp only [applyTopologyChanges, publish, hj₃, hl₃]

theorem applyTopologyChanges_strategyMembers (ml : MemberList) (c : TopologyChanges)
    (hkinds : ∀ m ∈ c.left.members ++ c.joined.members, m.kinds.Nodup) (k : String) :
    (ml.applyTopologyChanges c).strategyMembers k =
      c.left.members.foldl (fun S m => if m.hasKind k then S.eraseP (·.address == m.address) else S)
        (ml.strategyMembers k) ++ c.joined.members.filter (·.hasKind k) := by
  simp only [List.mem_append] at hkinds
  rw [applyTopologyChanges, strategyMembers_publish,
    joins_strategyMembers _ _ (fun m h => hkinds m (.inr h)),
    leaves_strategyMembers _ _ (fun m h => hkinds m (.inl h))]
  rfl

@[simp] theorem mem_activeMembers {ml : MemberList} {members : List Member} {m : Member} :
    m ∈ (ml.activeMembers sum64 members).members ↔ m ∈ members ∧ m.id ∉ ml.blockList := by
  simp [activeMembers]

/-! ### What a call publishes -/

/-- **A published topology.** A call that `Equals` does not stop sets the member set to the
active members, none of whose ids is blocked afterwards.  It publishes one
`EndpointTerminatedEvent` per member that left, then the topology of the active members, whose
`Joined` are the active members whose id was not a member, and whose `Left` are the members whose
id is not active. -/
theorem updateClusterTopology_published (ml : MemberList) (members : List Member)
    (h : (ml.activeMembers sum64 members).equals ml.members = false) :
    let active := ml.activeMembers sum64 members
    let ml' := ml.updateClusterTopology sum64 members
    ml'.members = active ∧ (∀ m ∈ ml'.members.members, m.id ∉ ml'.blockList) ∧
      ∃ t : ClusterTopology,
        ml'.events = ml.events ++
          (ml.members.except sum64 active).members.map (fun m => .endpointTerminated m.address) ++
          [.topology t] ∧
        t.members = active.members ∧
        (∀ m, m ∈ t.joined ↔ m ∈ active.members ∧ m.id ∉ ml.members.ids) ∧
        (∀ m, m ∈ t.left ↔ m ∈ ml.members.members ∧ m.id ∉ active.ids) := by
  intro active ml'
  obtain ⟨h₁, h₂, h₃⟩ := applyTopologyChanges_frame ml
    ⟨⟨active.topologyHash, active.members, (ml.members.except sum64 active).members,
      (active.except sum64 ml.members).members⟩, active, active.except sum64 ml.members, ml.members.except sum64 active⟩
  have hml' : ml' = _ := updateClusterTopology_of_changed sum64 h
  refine ⟨hml' ▸ h₁, ?_, _, hml' ▸ h₃, rfl, fun m => MemberSet.mem_except sum64,
    fun m => MemberSet.mem_except sum64⟩
  -- an active id is not blocked before the call, and is not among the ids that left
  intro m hm hblocked
  rw [hml', h₁] at hm
  rw [hml', h₂, block, List.mem_append] at hblocked
  have hactive := (mem_activeMembers sum64).mp hm
  rcases hblocked with hb | hb
  · exact hactive.2 hb
  · obtain ⟨l, hl, hlm⟩ := List.mem_map.mp hb
    have hl' := (MemberSet.mem_except sum64).mp hl
    exact hl'.2 (hlm ▸ List.mem_map_of_mem hm)

/-! ### Members that left never join again -/

theorem topologies_applyTopologyChanges (ml : MemberList) (c : TopologyChanges) :
    (ml.applyTopologyChanges c).topologies = ml.topologies ++ [c.topology] := by
  simp [topologies, (applyTopologyChanges_frame ml c).2.2, List.filterMap_append,
    MemberListEvent.topology?]

/-- Every id of a published `Left` set is blocked, and no id of a published `Left` set is in a
later published `Joined` set. -/
structure LeftBlocked (ml : MemberList) : Prop where
  left_blocked : ∀ t ∈ ml.topologies, ∀ m ∈ t.left, m.id ∈ ml.blockList
  left_not_joined :
    ml.topologies.Pairwise fun t t' => ∀ m ∈ t.left, ∀ m' ∈ t'.joined, m.id ≠ m'.id

theorem leftBlocked_new (blocked : List String) : (new sum64 blocked).LeftBlocked where
  left_blocked := by simp [new, topologies]
  left_not_joined := by simp [new, topologies]

/-- A call that changes the member set keeps `LeftBlocked`: the ids that left are blocked at once,
and the ids that join were not blocked before. -/
theorem leftBlocked_updateClusterTopology {ml : MemberList} (hml : ml.LeftBlocked)
    (members : List Member) : (ml.updateClusterTopology sum64 members).LeftBlocked := by
  cases h : (ml.activeMembers sum64 members).equals ml.members
  · rw [updateClusterTopology_of_changed sum64 h]
    set c : TopologyChanges := ⟨_, _, _, _⟩
    have hblock := (applyTopologyChanges_frame ml c).2.1
    have hjoined : ∀ m' ∈ c.topology.joined, m'.id ∉ ml.blockList := fun m' hm' =>
      ((mem_activeMembers sum64).mp ((MemberSet.mem_except sum64).mp hm').1).2
    constructor
    · rw [topologies_applyTopologyChanges, hblock]
      intro t ht m hm
      rcases List.mem_append.mp ht with ht | ht
      · exact List.mem_append_left _ (hml.left_blocked t ht m hm)
      · rw [List.mem_singleton.mp ht] at hm
        exact List.mem_append_right _ (List.mem_map_of_mem hm)
    · rw [topologies_applyTopologyChanges, List.pairwise_append]
      refine ⟨hml.left_not_joined, List.pairwise_singleton _ _, ?_⟩
      intro t ht t' ht' m hm m' hm' hid
      rw [List.mem_singleton.mp ht'] at hm'
      exact hjoined m' hm' (hid ▸ hml.left_blocked t ht m hm)
  · rwa [updateClusterTopology_of_equals sum64 h]

theorem leftBlocked_step {ml : MemberList} (hml : ml.LeftBlocked) :
    ∀ i, (ml.step sum64 i).LeftBlocked
  | .updateClusterTopology members => leftBlocked_updateClusterTopology sum64 hml members
  | .block _ =>
    ⟨fun t ht m hm => List.mem_append_left _ (hml.left_blocked t ht m hm), hml.left_not_joined⟩

/-- **Left members never join again.** Over every run of reports and blocks, no id of a published
`Left` set is in a later published `Joined` set. -/
theorem run_leftBeforeJoined (blocked : List String) (inputs : List MemberListInput) :
    (Transition.runFrom (step sum64) (new sum64 blocked) inputs).topologies.Pairwise
      fun t t' => ∀ m ∈ t.left, ∀ m' ∈ t'.joined, m.id ≠ m'.id :=
  (@Transition.runFrom_induction _ _ (step sum64) LeftBlocked
    (fun _ i h => leftBlocked_step sum64 h i) _ (leftBlocked_new sum64 blocked) inputs).left_not_joined

/-! ### The strategies agree with the member set -/

/-- Reported members are consistent over a run: an id names one member, and no member lists a
kind twice.  One address may name several members in turn, as when a member restarts at the same
host and port with a new id. -/
structure ConsistentMembers (U : List Member) : Prop where
  id_inj : ∀ m ∈ U, ∀ m' ∈ U, m.id = m'.id → m = m'
  kinds_nodup : ∀ m ∈ U, m.kinds.Nodup

/-- The strategies agree with the member set: the member set holds reported members, each id
once and each address once, and the strategy of each kind holds each member of that kind once
and nothing else. -/
structure StrategiesAgree (U : List Member) (ml : MemberList) : Prop where
  members_reported : ∀ m ∈ ml.members.members, m ∈ U
  ids_nodup : ml.members.ids.Nodup
  addresses_nodup : (ml.members.members.map Member.address).Nodup
  strategy_nodup : ∀ k, (ml.strategyMembers k).Nodup
  mem_strategy : ∀ k x, x ∈ ml.strategyMembers k ↔ x ∈ ml.members.members ∧ x.hasKind k = true

theorem strategiesAgree_new {U : List Member} (blocked : List String) :
    StrategiesAgree U (new sum64 blocked) := by
  have hempty : (new sum64 blocked).members.members = [] := rfl
  refine ⟨by simp [hempty], by simp [MemberSet.ids, hempty], by simp [hempty], fun k => ?_,
    fun k x => ?_⟩
  · simp [strategyMembers, new]
  · rw [hempty]
    simp [strategyMembers, new]

/-- Removing the members `ls` one by one, each from the strategy if it has kind `k`, from a
strategy without repeats, leaves exactly the members not removed, when the members removed and
those of the strategy are among members `P` whose addresses differ. -/
theorem leaves_mem {P : List Member} (hP : (P.map Member.address).Nodup) (k : String) :
    ∀ (ls S : List Member), (∀ m ∈ ls, m ∈ P) → (∀ x ∈ S, x ∈ P) → S.Nodup →
      let S' := ls.foldl (fun S m => if m.hasKind k then S.eraseP (·.address == m.address) else S) S
      S'.Nodup ∧ ∀ x, x ∈ S' ↔ x ∈ S ∧ ¬(x ∈ ls ∧ x.hasKind k = true) := by
  intro ls
  induction ls with
  | nil => intro S _ _ hS; simpa using hS
  | cons m ls ih =>
    intro S hls hSP hS
    have hmP : m ∈ P := hls m List.mem_cons_self
    have hlsP : ∀ m' ∈ ls, m' ∈ P := fun m' h => hls m' (List.mem_cons_of_mem m h)
    by_cases hk : m.hasKind k = true
    · -- the address of `m` names `m` alone among `P`, so the removal is `erase m`
      have herase : S.eraseP (·.address == m.address) = S.erase m :=
        eraseP_key_eq_erase Member.address fun x hx hxa =>
          List.inj_on_of_nodup_map hP (hSP x hx) hmP hxa
      obtain ⟨hnodup, hmem⟩ := ih (S.erase m) hlsP
        (fun x hx => hSP x (List.mem_of_mem_erase hx)) (hS.erase m)
      simp only [List.foldl_cons, hk, if_true, herase]
      refine ⟨hnodup, fun x => ?_⟩
      rw [hmem x, hS.mem_erase_iff]
      by_cases hx : x = m
      · subst hx; simp [hk]
      · simp [hx]
    · obtain ⟨hnodup, hmem⟩ := ih S hlsP hSP hS
      simp only [List.foldl_cons, hk, Bool.false_eq_true, if_false]
      refine ⟨hnodup, fun x => ?_⟩
      rw [hmem x]
      by_cases hx : x = m
      · subst hx; simp [hk]
      · simp [hx]

/-- A key the reported members list once is listed once by the active members. -/
theorem activeMembers_nodup_map {β : Type} (f : Member → β) (ml : MemberList)
    {members : List Member} (h : (members.map f).Nodup) :
    ((ml.activeMembers sum64 members).members.map f).Nodup := by
  have hsorted : ((newMemberSet sum64 members).members.map f).Nodup :=
    ((newMemberSet_perm sum64 members).map _).nodup_iff.mpr h
  have hfilter :
      (((newMemberSet sum64 members).members.filter fun m => m.id ∉ ml.blockList).map f).Nodup :=
    hsorted.sublist (List.filter_sublist.map f)
  exact ((MemberSet.exceptIds_perm sum64 _ _).map f).nodup_iff.mpr hfilter

section Agree

variable {U : List Member} (hU : ConsistentMembers U)
include hU

/-- Consistent members that list each address once list each id once. -/
theorem ConsistentMembers.ids_nodup {l : List Member} (hl : ∀ m ∈ l, m ∈ U)
    (haddr : (l.map Member.address).Nodup) : (l.map Member.id).Nodup :=
  (haddr.of_map Member.address).map_on fun x hx y hy hxy => hU.id_inj x (hl x hx) y (hl y hy) hxy

/-- Applying topology changes whose `Left` are the members with an id that is not active and whose
`Joined` are the active members with an id that was not a member keeps the strategies in
agreement, with the active set as the new member set. -/
theorem strategiesAgree_applyTopologyChanges {ml : MemberList} (hml : StrategiesAgree U ml)
    {c : TopologyChanges} (hA : ∀ m ∈ c.active.members, m ∈ U)
    (hAaddr : (c.active.members.map Member.address).Nodup)
    (hl : ∀ x, x ∈ c.left.members ↔ x ∈ ml.members.members ∧ x.id ∉ c.active.ids)
    (hj : ∀ x, x ∈ c.joined.members ↔ x ∈ c.active.members ∧ x.id ∉ ml.members.ids)
    (hjnodup : c.joined.members.Nodup) :
    StrategiesAgree U (ml.applyTopologyChanges c) := by
  have hframe := applyTopologyChanges_frame ml c
  -- a member of the old set whose id is active is the active member of that id, and conversely
  have hsame : ∀ x ∈ ml.members.members, x.id ∈ c.active.ids → x ∈ c.active.members := by
    intro x hx hid
    obtain ⟨a, ha, hax⟩ := List.mem_map.mp hid
    rwa [hU.id_inj x (hml.members_reported x hx) a (hA a ha) hax.symm]
  have hsame' : ∀ x ∈ c.active.members, x.id ∈ ml.members.ids → x ∈ ml.members.members := by
    intro x hx hid
    obtain ⟨p, hp, hpx⟩ := List.mem_map.mp hid
    rwa [hU.id_inj x (hA x hx) p (hml.members_reported p hp) hpx.symm]
  have hkinds : ∀ m ∈ c.left.members ++ c.joined.members, m.kinds.Nodup := by
    intro m hm
    rcases List.mem_append.mp hm with hm | hm
    · exact hU.kinds_nodup m (hml.members_reported m ((hl m).mp hm).1)
    · exact hU.kinds_nodup m (hA m ((hj m).mp hm).1)
  -- the strategy of each kind after the leaves, which were members, then after the joins
  have hkey : ∀ k, ((ml.applyTopologyChanges c).strategyMembers k).Nodup ∧
      ∀ x, x ∈ (ml.applyTopologyChanges c).strategyMembers k ↔
        x ∈ c.active.members ∧ x.hasKind k = true := by
    intro k
    obtain ⟨hnodup, hmem⟩ := leaves_mem hml.addresses_nodup k c.left.members
      (ml.strategyMembers k) (fun m hm => ((hl m).mp hm).1)
      (fun x hx => ((hml.mem_strategy k x).mp hx).1) (hml.strategy_nodup k)
    rw [applyTopologyChanges_strategyMembers ml c hkinds]
    refine ⟨List.nodup_append.mpr ⟨hnodup, hjnodup.filter _, ?_⟩, fun x => ?_⟩
    · -- what stays was a member; what joins was not
      intro x hx y hy hxy
      have hxP := ((hml.mem_strategy k x).mp ((hmem x).mp hx).1).1
      have hyJ := (hj y).mp (List.mem_filter.mp hy).1
      exact hyJ.2 (hxy ▸ List.mem_map_of_mem hxP)
    · rw [List.mem_append, hmem x, hml.mem_strategy k x, List.mem_filter, hl x, hj x]
      constructor
      · rintro (⟨⟨hxP, hxk⟩, hnot⟩ | ⟨⟨hxA, -⟩, hxk⟩)
        · have hid : x.id ∈ c.active.ids := by
            by_contra hid
            exact hnot ⟨⟨hxP, hid⟩, hxk⟩
          exact ⟨hsame x hxP hid, hxk⟩
        · exact ⟨hxA, hxk⟩
      · rintro ⟨hxA, hxk⟩
        by_cases hid : x.id ∈ ml.members.ids
        · exact .inl ⟨⟨hsame' x hxA hid, hxk⟩, fun h => h.1.2 (List.mem_map_of_mem hxA)⟩
        · exact .inr ⟨⟨hxA, hid⟩, hxk⟩
  refine ⟨?_, ?_, ?_, fun k => (hkey k).1, fun k x => ?_⟩
  · rw [hframe.1]; exact hA
  · rw [hframe.1]; exact hU.ids_nodup hA hAaddr
  · rw [hframe.1]; exact hAaddr
  · rw [(hkey k).2, hframe.1]

/-- Every input whose members are reported and list each address once keeps the strategies in
agreement. -/
theorem strategiesAgree_step {ml : MemberList} (hml : StrategiesAgree U ml) {i : MemberListInput}
    (hrep : ∀ m ∈ i.reported, m ∈ U) (haddr : i.AddressesNodup) :
    StrategiesAgree U (ml.step sum64 i) := by
  cases i with
  | updateClusterTopology members =>
    show StrategiesAgree U (ml.updateClusterTopology sum64 members)
    cases h : (ml.activeMembers sum64 members).equals ml.members
    · rw [updateClusterTopology_of_changed sum64 h]
      have hA : ∀ m ∈ (ml.activeMembers sum64 members).members, m ∈ U :=
        fun m hm => hrep m ((mem_activeMembers sum64).mp hm).1
      have hAaddr := activeMembers_nodup_map sum64 Member.address ml haddr
      refine strategiesAgree_applyTopologyChanges hU hml hA hAaddr
        (fun x => MemberSet.mem_except sum64) (fun x => MemberSet.mem_except sum64) ?_
      exact (MemberSet.except_perm sum64 _ _).nodup_iff.mpr
        (((hU.ids_nodup hA hAaddr).of_map _).filter _)
    · rwa [updateClusterTopology_of_equals sum64 h]
  | block memberIDs => exact ⟨hml.1, hml.2, hml.3, hml.4, hml.5⟩

end Agree

/-- **The strategies hold the members of their kind.** Over every run of reports and blocks in
which an id names one member, no member lists a kind twice, and no report lists an address
twice, the strategy of every kind holds the members of that kind, each once, up to order. -/
theorem run_strategies (blocked : List String) (inputs : List MemberListInput)
    (hU : ConsistentMembers (inputs.flatMap MemberListInput.reported))
    (haddr : ∀ i ∈ inputs, i.AddressesNodup) (k : String) :
    let ml := Transition.runFrom (step sum64) (new sum64 blocked) inputs
    (ml.strategyMembers k).Perm (ml.members.members.filter (·.hasKind k)) := by
  intro ml
  have hagree : StrategiesAgree (inputs.flatMap MemberListInput.reported) ml :=
    @Transition.runFrom_induction_mem _ _ (step sum64) (StrategiesAgree _) inputs
      (fun _ i hi h => strategiesAgree_step sum64 hU h
        (fun m hm => List.mem_flatMap.mpr ⟨i, hi, hm⟩) (haddr i hi))
      _ (strategiesAgree_new sum64 blocked)
  rw [List.perm_ext_iff_of_nodup (hagree.strategy_nodup k) ((hagree.ids_nodup.of_map _).filter _)]
  intro x
  rw [hagree.mem_strategy k x, List.mem_filter]

/-! ### The topology invariants -/

/-- **The member list's topology invariants.** (a, c) a call that `Equals` does not stop leaves
the active set as the member set, with no blocked id, and publishes its topology with `Joined`
the active members whose id was not a member and `Left` the members whose id is not active;
(b) over every run, no id of a published `Left` set is in a later published `Joined` set;
(d) over every run in which an id names one member and no member lists a kind twice, and whose
reports list each address once, the strategy of every kind holds the members of that kind, each
once.  All three hold whatever the hash `sum64`. -/
theorem topology_updates_keep_invariants (sum64 : List UInt8 → UInt64) :
    (∀ (ml : MemberList) (members : List Member),
      (ml.activeMembers sum64 members).equals ml.members = false →
        let active := ml.activeMembers sum64 members
        let ml' := ml.updateClusterTopology sum64 members
        ml'.members = active ∧ (∀ m ∈ ml'.members.members, m.id ∉ ml'.blockList) ∧
          ∃ t : ClusterTopology,
            ml'.events = ml.events ++
              (ml.members.except sum64 active).members.map
                (fun m => .endpointTerminated m.address) ++ [.topology t] ∧
            t.members = active.members ∧
            (∀ m, m ∈ t.joined ↔ m ∈ active.members ∧ m.id ∉ ml.members.ids) ∧
            (∀ m, m ∈ t.left ↔ m ∈ ml.members.members ∧ m.id ∉ active.ids)) ∧
    (∀ (blocked : List String) (inputs : List MemberListInput),
      (Transition.runFrom (step sum64) (new sum64 blocked) inputs).topologies.Pairwise
        fun t t' => ∀ m ∈ t.left, ∀ m' ∈ t'.joined, m.id ≠ m'.id) ∧
    (∀ (blocked : List String) (inputs : List MemberListInput),
      ConsistentMembers (inputs.flatMap MemberListInput.reported) →
      (∀ i ∈ inputs, i.AddressesNodup) → ∀ k,
        let ml := Transition.runFrom (step sum64) (new sum64 blocked) inputs
        (ml.strategyMembers k).Perm (ml.members.members.filter (·.hasKind k))) :=
  ⟨updateClusterTopology_published sum64, run_leftBeforeJoined sum64, run_strategies sum64⟩

/-- A stand-in for `Sum64` in the runs below: the number of bytes hashed.  It tells apart every
two keys these runs compare, as `Sum64` does. -/
def byteCount (bytes : List UInt8) : UInt64 :=
  bytes.length.toUInt64

/-- A member of kind `"k"` at `10.0.0.1:8090`. -/
def memberA : Member :=
  ⟨"10.0.0.1", 8090, "a", ["k"]⟩

/-- A member of kind `"k"` at the same host and port as `memberA`, with another id: `memberA`
restarted. -/
def memberB : Member :=
  ⟨"10.0.0.1", 8090, "b", ["k"]⟩

/-- A run that meets every hypothesis of the invariants: `memberA` joins, then restarts at the
same address as `memberB`, which replaces it. -/
theorem topology_updates_keep_invariants_on_restart :
    ConsistentMembers ([MemberListInput.updateClusterTopology [memberA],
        .updateClusterTopology [memberB]].flatMap MemberListInput.reported) ∧
      (∀ i ∈ [MemberListInput.updateClusterTopology [memberA], .updateClusterTopology [memberB]],
        i.AddressesNodup) ∧
      ((Transition.runFrom (step byteCount) (new byteCount [])
          [.updateClusterTopology [memberA], .updateClusterTopology [memberB]]).strategyMembers
          "k").Perm
        ((Transition.runFrom (step byteCount) (new byteCount [])
          [.updateClusterTopology [memberA], .updateClusterTopology [memberB]]).members.members.filter
          (·.hasKind "k")) := by
  have hU : ConsistentMembers ([MemberListInput.updateClusterTopology [memberA],
      .updateClusterTopology [memberB]].flatMap MemberListInput.reported) :=
    ⟨by decide, by decide⟩
  have haddr : ∀ i ∈ [MemberListInput.updateClusterTopology [memberA],
      .updateClusterTopology [memberB]], i.AddressesNodup := by
    simp [MemberListInput.AddressesNodup]
  exact ⟨hU, haddr, (topology_updates_keep_invariants byteCount).2.2 [] _ hU haddr "k"⟩

/-- **The invariants fail without their hypotheses.** `memberA` is reported and then its id is
blocked: it stays in the member set until the next report.  `memberB` joins, then `memberA` at
the same address in the same report, then `memberA` leaves: `RemoveMember` takes out `memberB`,
the first member at that address, so the strategy of `"k"` holds `memberA`, no longer a member,
and not `memberB`.  Each report changes the ids, so any hash that tells their keys apart, as
`byteCount` does, gives this run. -/
theorem blocked_member_kept_and_live_member_dropped :
    (memberA ∈ (Transition.runFrom (step byteCount) (new byteCount [])
        [.updateClusterTopology [memberA], .block ["a"]]).members.members ∧
      "a" ∈ (Transition.runFrom (step byteCount) (new byteCount [])
        [.updateClusterTopology [memberA], .block ["a"]]).blockList) ∧
    ((Transition.runFrom (step byteCount) (new byteCount [])
        [.updateClusterTopology [memberB], .updateClusterTopology [memberA, memberB],
          .updateClusterTopology [memberB]]).members.members = [memberB] ∧
      (Transition.runFrom (step byteCount) (new byteCount [])
        [.updateClusterTopology [memberB], .updateClusterTopology [memberA, memberB],
          .updateClusterTopology [memberB]]).strategyMembers "k" = [memberA]) := by
  decide

end MemberList

end ProtoActor.Cluster
