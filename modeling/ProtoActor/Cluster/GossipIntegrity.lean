import ProtoActor.Cluster.Informer

/-!
# Integrity of gossiped values

Informers of any number of members, each under its own member id, set their own values
(`SetState`, and `UpdateClusterTopology` through it), build deltas of their state
(`GetMemberStateDelta`, and `SendState` after it makes empty member states for the other
members), and merge any delta ever built (`ReceiveState`), in any order, any number of times or
never.  `GossipSystem` keeps, beside the informers, every value a member has set with the
sequence number it got, and every state a delta has carried.

* `gossip_state_integrity`: in every reachable state, whatever a node holds for a member's key
  is a value that member set under that key, with the sequence number it got; and over any run
  from there, the node keeps a value for that key with a sequence number at least as high.

The argument is the invariant `GossipSystem.Integrity`; merging a delta keeps it because
`mergeState` only takes remote values (`mergeState_all`) and never lowers a sequence number it
holds (`kept_mergeState`), and setting a value keeps it because an informer's own sequence number
is above every one it has given.
-/

namespace ProtoActor.Cluster

open ProtoActor.Transition

variable {α : Type}

/-! ### What each informer operation does to the gossip state -/

namespace Informer

/-- A consensus check changes only the checks. -/
theorem runCheck_eq (inf : Informer α) (id : String) :
    ∃ cc, inf.runCheck id = { inf with consensusChecks := cc } := by
  unfold runCheck
  split
  · exact ⟨inf.consensusChecks, rfl⟩
  · exact ⟨_, rfl⟩

theorem runFrom_runCheck_eq (inf : Informer α) (ids : List String) :
    ∃ cc, runFrom runCheck inf ids = { inf with consensusChecks := cc } := by
  refine runFrom_induction
    (P := fun i : Informer α => ∃ cc : ConsensusChecks α, i = { inf with consensusChecks := cc }) ?_
    ⟨inf.consensusChecks, rfl⟩ ids
  rintro _ id ⟨cc, rfl⟩
  obtain ⟨cc', hcc'⟩ := runCheck_eq { inf with consensusChecks := cc } id
  exact ⟨cc', hcc'⟩

/-- `SetState` gives the key of this member the next sequence number and the value. -/
theorem setState_eq (inf : Informer α) (key : String) (message : α) :
    ∃ cc, inf.setState key message = { inf with
      state := (setKey inf.state key message inf.myID inf.localSeqNumber).1
      localSeqNumber := inf.localSeqNumber + 1
      consensusChecks := cc } := by
  obtain ⟨cc, hcc⟩ := runFrom_runCheck_eq
    { inf with
      state := (setKey inf.state key message inf.myID inf.localSeqNumber).1
      localSeqNumber := inf.localSeqNumber + 1 } (inf.consensusChecks.getByUpdatedKey key)
  exact ⟨cc, hcc⟩

@[simp] theorem setState_myID (inf : Informer α) (key : String) (message : α) :
    (inf.setState key message).myID = inf.myID := by
  obtain ⟨cc, hcc⟩ := setState_eq inf key message
  rw [hcc]

@[simp] theorem setState_localSeqNumber (inf : Informer α) (key : String) (message : α) :
    (inf.setState key message).localSeqNumber = inf.localSeqNumber + 1 := by
  obtain ⟨cc, hcc⟩ := setState_eq inf key message
  rw [hcc]

theorem get?_setState (inf : Informer α) (key : String) (message : α) (m k : String) :
    (inf.setState key message).state.get? m k =
      if m = inf.myID ∧ k = key then some ⟨inf.localSeqNumber + 1, message⟩
      else inf.state.get? m k := by
  obtain ⟨cc, hcc⟩ := setState_eq inf key message
  rw [hcc]
  exact get?_setKey _ _ _ _ _ m k

/-- `SetState` keeps every value held if this member's own values are below its sequence
number. -/
theorem kept_setState (inf : Informer α) (key : String) (message : α)
    (hbelow : ∀ e, inf.state.get? inf.myID key = some e → e.sequenceNumber ≤ inf.localSeqNumber) :
    inf.state.Kept (inf.setState key message).state := by
  intro m k e he
  rw [get?_setState]
  split_ifs with hmk
  · obtain ⟨rfl, rfl⟩ := hmk
    have hle := hbelow e he
    refine ⟨_, rfl, ?_⟩
    show e.sequenceNumber ≤ inf.localSeqNumber + 1
    omega
  · exact ⟨e, he, Int.le_refl _⟩

/-- `ReceiveState` keeps the state, or replaces it by the merged one. -/
theorem receiveState_eq (inf : Informer α) (remoteState : GossipState α) :
    (inf.receiveState remoteState).2 = inf ∨
      ∃ cc, (inf.receiveState remoteState).2 =
        { inf with state := (mergeState inf.state remoteState).mergedState, consensusChecks := cc } := by
  unfold receiveState
  dsimp only
  split
  · exact .inl rfl
  · obtain ⟨cc, hcc⟩ := runFrom_runCheck_eq
      { inf with state := (mergeState inf.state remoteState).mergedState }
      (inf.consensusChecks.getByUpdatedKeys (mergeState inf.state remoteState).updatedKeys)
    exact .inr ⟨cc, hcc⟩

theorem addConsensusCheck_eq (inf : Informer α) (id : String) (check : ConsensusCheck α) :
    ∃ cc, inf.addConsensusCheck id check = { inf with consensusChecks := cc } := by
  obtain ⟨cc, hcc⟩ := runCheck_eq { inf with consensusChecks := inf.consensusChecks.add id check } id
  exact ⟨cc, hcc⟩

/-! ### Deltas carry only values of the state -/

theorem mem_selectMembers {myID : String} {gossipMaxSend : Int} :
    ∀ {count : Int} {es : List (Σ _ : String, GossipMemberState α)}
      {p : String × GossipMemberState α}, p ∈ selectMembers myID gossipMaxSend count es →
      (⟨p.1, p.2⟩ : Σ _ : String, GossipMemberState α) ∈ es
  | _, [], _, hp => by simp [selectMembers] at hp
  | count, e :: rest, p, hp => by
    simp only [selectMembers] at hp
    split_ifs at hp
    · exact List.mem_cons_of_mem _ (mem_selectMembers hp)
    · rw [List.mem_singleton] at hp
      subst hp
      exact List.mem_cons_self
    · rcases List.mem_cons.mp hp with rfl | hp
      · exact List.mem_cons_self
      · exact List.mem_cons_of_mem _ (mem_selectMembers hp)

theorem all_runFrom_deltaValue {Q : String → GossipKeyValue α → Prop} (watermark : Int)
    {es : List (Σ _ : String, GossipKeyValue α)} (hes : ∀ e ∈ es, Q e.1 e.2)
    {acc : GossipMemberState α × Int} (hacc : acc.1.All Q) :
    (runFrom (deltaValue watermark) acc es).1.All Q := by
  refine runFrom_induction_mem (P := fun a : GossipMemberState α × Int => a.1.All Q) ?_ hacc
  intro a e he ha
  unfold deltaValue
  split_ifs
  · exact ha
  · exact ha.insert (hes e he)

theorem all_deltaMember {P : String → String → GossipKeyValue α → Prop} (targetMemberID : String)
    {acc : GossipState α × AList (fun _ : String => Int)} (hacc : acc.1.All P)
    {member : String × GossipMemberState α} (hm : member.2.All (P member.1)) :
    (deltaMember targetMemberID acc member).1.All P := by
  unfold deltaMember
  dsimp only
  split_ifs
  · exact hacc.insert (all_runFrom_deltaValue _ (fun e he => hm.of_mem he) GossipMemberState.all_empty)
  · exact hacc

/-- A delta holds only values of the informer's state. -/
theorem all_getMemberStateDelta {P : String → String → GossipKeyValue α → Prop} (inf : Informer α)
    (targetMemberID : String) (h : inf.state.All P) :
    (inf.getMemberStateDelta targetMemberID).1.state.All P := by
  -- every member the delta reads is one the state holds
  have hmembers : ∀ p ∈ ((inf.state.members.lookup inf.myID).map fun member => (inf.myID, member)).toList ++
      selectMembers inf.myID inf.gossipMaxSend
        (if ((inf.state.members.lookup inf.myID).map fun member => (inf.myID, member)).isSome then 1
          else 0) inf.state.members.entries, p.2.All (P p.1) := by
    intro p hp
    rcases List.mem_append.mp hp with hself | hsel
    · simp only [Option.mem_toList, Option.map_eq_some_iff] at hself
      obtain ⟨member, hlookup, rfl⟩ := hself
      exact h.lookup hlookup
    · exact h.of_mem (mem_selectMembers hsel)
  exact runFrom_induction_mem (P := fun acc : GossipState α × AList (fun _ : String => Int) => acc.1.All P)
    (fun acc p hp hacc => all_deltaMember targetMemberID hacc (hmembers p hp)) GossipState.all_empty

theorem sendStateFrom_eq (fanOutCount : Int) (inf : Informer α) (members : List Member) :
    ∃ offsets, (sendStateFrom fanOutCount inf members).2 = { inf with committedOffsets := offsets } := by
  induction members generalizing fanOutCount inf with
  | nil => exact ⟨inf.committedOffsets, rfl⟩
  | cons member rest ih =>
    obtain ⟨offsets, hoffsets⟩ := ih (fanOutCount + 1) (inf.getMemberStateDelta member.id).2
    simp only [sendStateFrom, getMemberStateDelta_hasState, Bool.not_true, Bool.false_eq_true,
      if_false]
    split_ifs
    · exact ⟨_, rfl⟩
    · exact ⟨offsets, hoffsets⟩

theorem all_sendStateFrom {P : String → String → GossipKeyValue α → Prop} (fanOutCount : Int)
    (inf : Informer α) (members : List Member) (h : inf.state.All P) :
    ∀ p ∈ (sendStateFrom fanOutCount inf members).1, p.1.state.All P := by
  induction members generalizing fanOutCount inf with
  | nil => simp [sendStateFrom]
  | cons member rest ih =>
    have hfirst := inf.all_getMemberStateDelta member.id h
    simp only [sendStateFrom, getMemberStateDelta_hasState, Bool.not_true, Bool.false_eq_true,
      if_false]
    split_ifs
    · simpa using hfirst
    · intro p hp
      rcases List.mem_cons.mp hp with rfl | hp
      · exact hfirst
      · exact ih (fanOutCount + 1) (inf.getMemberStateDelta member.id).2 h p hp

/-- The state after the empty member states of `SendState`: the same lookups. -/
theorem get?_sendState_state (inf : Informer α) (m k : String) :
    (runFrom (fun state (member : Member) => (ensureMemberStateExists state member.id).2) inf.state
      inf.otherMembers).get? m k = inf.state.get? m k :=
  runFrom_induction (P := fun state : GossipState α => state.get? m k = inf.state.get? m k)
    (fun state member h => by rw [get?_ensureMemberStateExists, h]) rfl _

theorem sendState_eq (inf : Informer α) (shuffled : List Member) :
    ∃ offsets, (inf.sendState shuffled).2 = { inf with
      state := runFrom (fun state (member : Member) => (ensureMemberStateExists state member.id).2)
        inf.state inf.otherMembers
      committedOffsets := offsets } :=
  sendStateFrom_eq 0 _ shuffled

theorem all_sendState {P : String → String → GossipKeyValue α → Prop} (inf : Informer α)
    (shuffled : List Member) (h : inf.state.All P) :
    ∀ p ∈ (inf.sendState shuffled).1, p.1.state.All P :=
  all_sendStateFrom 0 _ shuffled fun m k e he => h m k e ((get?_sendState_state inf m k).symm.trans he)

end Informer

/-! ### The members, what they set, and what deltas carry -/

/-- A value set by a member: the member, the key, and the value with the sequence number it
got. -/
structure Assignment (α : Type) where
  memberID : String
  key : String
  entry : GossipKeyValue α

/-- A value held for a member's key is one of the assignments. -/
def Assignment.Among (assigned : List (Assignment α)) (m k : String) (e : GossipKeyValue α) :
    Prop :=
  ⟨m, k, e⟩ ∈ assigned

/-- The informer of each member id; the values the members have set, in order; and the states
of every delta built so far, each of which may still be delivered. -/
structure GossipSystem (α : Type) where
  nodes : String → Informer α
  assigned : List (Assignment α)
  built : List (GossipState α)

namespace GossipSystem

/-- Every member with a new informer. -/
def init (fanOut maxSend : String → Int) : GossipSystem α :=
  ⟨fun id => newInformer id (fanOut id) (maxSend id), [], []⟩

/-- Replace the informer of a member. -/
def setNode (s : GossipSystem α) (id : String) (inf : Informer α) : GossipSystem α :=
  { s with nodes := Function.update s.nodes id inf }

/-- `SetState` of a member, recording the value set. -/
def setState (s : GossipSystem α) (id key : String) (message : α) : GossipSystem α :=
  { s.setNode id ((s.nodes id).setState key message) with
    assigned := s.assigned ++ [⟨id, key, ⟨(s.nodes id).localSeqNumber + 1, message⟩⟩] }

/-- `UpdateClusterTopology` of a member, recording the topology set. -/
def updateClusterTopology (pack : ClusterTopology → α) (s : GossipSystem α) (id : String)
    (topology : ClusterTopology) : GossipSystem α :=
  { s.setNode id ((s.nodes id).updateClusterTopology pack topology) with
    assigned := s.assigned ++ [⟨id, topologyKey, ⟨(s.nodes id).localSeqNumber + 1, pack topology⟩⟩] }

/-- `GetMemberStateDelta` of a member toward a target; the delta's state joins those built. -/
def getMemberStateDelta (s : GossipSystem α) (id targetMemberID : String) : GossipSystem α :=
  let r := (s.nodes id).getMemberStateDelta targetMemberID
  { s.setNode id r.2 with built := s.built ++ [r.1.state] }

/-- `SendState` of a member, given the shuffled other members; its deltas join those built. -/
def sendState (s : GossipSystem α) (id : String) (shuffled : List Member) : GossipSystem α :=
  let r := (s.nodes id).sendState shuffled
  { s.setNode id r.2 with built := s.built ++ r.1.map fun p => p.1.state }

/-- `ReceiveState` of a member. -/
def receiveState (s : GossipSystem α) (id : String) (remoteState : GossipState α) :
    GossipSystem α :=
  s.setNode id ((s.nodes id).receiveState remoteState).2

end GossipSystem

/-- One step: an informer operation of one member.  A delta is received only if it was built,
and may be received again, or never. -/
inductive GossipSystemStep (pack : ClusterTopology → α) : GossipSystem α → GossipSystem α → Prop
  | setState (s : GossipSystem α) (id key : String) (message : α) :
      GossipSystemStep pack s (s.setState id key message)
  | updateClusterTopology (s : GossipSystem α) (id : String) (topology : ClusterTopology) :
      GossipSystemStep pack s (s.updateClusterTopology pack id topology)
  | getMemberStateDelta (s : GossipSystem α) (id targetMemberID : String) :
      GossipSystemStep pack s (s.getMemberStateDelta id targetMemberID)
  | sendState (s : GossipSystem α) (id : String) (shuffled : List Member)
      (h : shuffled.Perm (s.nodes id).otherMembers) :
      GossipSystemStep pack s (s.sendState id shuffled)
  | commitOffsets (s : GossipSystem α) (id : String) :
      GossipSystemStep pack s (s.setNode id (s.nodes id).commitOffsets)
  | receiveState (s : GossipSystem α) (id : String) (remoteState : GossipState α)
      (h : remoteState ∈ s.built) :
      GossipSystemStep pack s (s.receiveState id remoteState)
  | addConsensusCheck (s : GossipSystem α) (id checkID : String) (check : ConsensusCheck α) :
      GossipSystemStep pack s (s.setNode id ((s.nodes id).addConsensusCheck checkID check))
  | removeConsensusCheck (s : GossipSystem α) (id checkID : String) :
      GossipSystemStep pack s (s.setNode id ((s.nodes id).removeConsensusCheck checkID))

namespace GossipSystem

/-! ### The invariant -/

/-- Each informer is its member's; what every node holds and every delta carries was set by its
member; a member's sequence number is above every one it has given; and no member gives one
sequence number twice. -/
structure Integrity (s : GossipSystem α) : Prop where
  own : ∀ id, (s.nodes id).myID = id
  held : ∀ n, (s.nodes n).state.All (Assignment.Among s.assigned)
  sent : ∀ st ∈ s.built, st.All (Assignment.Among s.assigned)
  below : ∀ a ∈ s.assigned, a.entry.sequenceNumber ≤ (s.nodes a.memberID).localSeqNumber
  distinct : (s.assigned.map fun a => (a.memberID, a.entry.sequenceNumber)).Nodup

theorem integrity_init (fanOut maxSend : String → Int) : (init fanOut maxSend : GossipSystem α).Integrity where
  own _ := rfl
  held _ := GossipState.all_empty
  sent _ h := by simp [init] at h
  below _ h := by simp [init] at h
  distinct := List.nodup_nil

variable {s : GossipSystem α}

@[simp] theorem setNode_nodes_self (s : GossipSystem α) (id : String) (inf : Informer α) :
    (s.setNode id inf).nodes id = inf :=
  Function.update_self _ _ _

theorem setNode_nodes_of_ne (s : GossipSystem α) {id n : String} (inf : Informer α) (h : n ≠ id) :
    (s.setNode id inf).nodes n = s.nodes n :=
  Function.update_of_ne h _ _

/-- A step at one member that sets no value: it keeps the invariant if the informer keeps its id
and sequence number and holds only values set, and every state built carries only such. -/
theorem Integrity.update (h : s.Integrity) {id : String} {inf : Informer α}
    {built : List (GossipState α)} (hid : inf.myID = id)
    (hseq : inf.localSeqNumber = (s.nodes id).localSeqNumber)
    (hheld : inf.state.All (Assignment.Among s.assigned))
    (hbuilt : ∀ st ∈ built, st.All (Assignment.Among s.assigned)) :
    Integrity { s.setNode id inf with built } := by
  -- the informer at `n` after the step, and what it keeps
  have hnode : ∀ n, ((s.setNode id inf).nodes n).myID = n ∧
      ((s.setNode id inf).nodes n).localSeqNumber = (s.nodes n).localSeqNumber ∧
      ((s.setNode id inf).nodes n).state.All (Assignment.Among s.assigned) := by
    intro n
    by_cases hn : n = id
    · subst hn
      simp only [setNode_nodes_self]
      exact ⟨hid, hseq, hheld⟩
    · rw [setNode_nodes_of_ne s inf hn]
      exact ⟨h.own n, rfl, h.held n⟩
  refine ⟨fun n => (hnode n).1, fun n => (hnode n).2.2, hbuilt, fun a ha => ?_, h.distinct⟩
  rw [(hnode a.memberID).2.1]
  exact h.below a ha

/-- `SetState` at one member, on an informer with the member's id, sequence number and state. -/
theorem Integrity.setState (h : s.Integrity) {id : String} (inf : Informer α) (hid : inf.myID = id)
    (hseq : inf.localSeqNumber = (s.nodes id).localSeqNumber)
    (hstate : inf.state = (s.nodes id).state) (key : String) (message : α) :
    Integrity { s.setNode id (inf.setState key message) with
      assigned := s.assigned ++ [⟨id, key, ⟨(s.nodes id).localSeqNumber + 1, message⟩⟩] } := by
  have hmono : ∀ {m k e}, Assignment.Among s.assigned m k e →
      Assignment.Among (s.assigned ++ [⟨id, key, ⟨(s.nodes id).localSeqNumber + 1, message⟩⟩]) m k e :=
    fun hm => List.mem_append_left _ hm
  refine ⟨fun n => ?_, fun n => ?_, fun st hst => (h.sent st hst).mono fun _ _ _ => hmono, ?_, ?_⟩
  · -- ids
    by_cases hn : n = id
    · subst hn; simp [hid]
    · rw [setNode_nodes_of_ne s _ hn]; exact h.own n
  · -- what the nodes hold: the new value is the one recorded
    by_cases hn : n = id
    · subst hn
      simp only [setNode_nodes_self]
      intro m k e he
      rw [Informer.get?_setState, hid, hseq, hstate] at he
      split_ifs at he with hmk
      · obtain ⟨rfl, rfl⟩ := hmk
        rw [Option.some_inj] at he
        subst he
        exact List.mem_append_right _ (List.mem_singleton_self _)
      · exact hmono (h.held n m k e he)
    · rw [setNode_nodes_of_ne s _ hn]
      exact (h.held n).mono fun _ _ _ => hmono
  · -- the member's sequence number went up by one, to the new value's
    intro b hb
    rcases List.mem_append.mp hb with hb | hb
    · by_cases hn : b.memberID = id
      · have hle := h.below b hb
        rw [hn] at hle ⊢
        rw [setNode_nodes_self, Informer.setState_localSeqNumber, hseq]
        omega
      · rw [setNode_nodes_of_ne s _ hn]
        exact h.below b hb
    · rw [List.mem_singleton] at hb
      subst hb
      rw [setNode_nodes_self, Informer.setState_localSeqNumber, hseq]
  · -- the new sequence number is above every one the member gave before
    rw [List.map_append, List.nodup_append]
    refine ⟨h.distinct, List.nodup_singleton _, ?_⟩
    intro x hx y hy hxy
    obtain ⟨b, hb, rfl⟩ := List.mem_map.mp hx
    simp only [List.map_cons, List.map_nil, List.mem_singleton] at hy
    subst hy
    simp only [Prod.mk.injEq] at hxy
    obtain ⟨hid', hseq'⟩ := hxy
    have hle := h.below b hb
    rw [hid'] at hle
    omega

/-- **Every step keeps the invariant.** -/
theorem Integrity.step {pack : ClusterTopology → α} {s s' : GossipSystem α} (h : s.Integrity)
    (hstep : GossipSystemStep pack s s') : s'.Integrity := by
  cases hstep with
  | setState id key message =>
    exact h.setState (s.nodes id) (h.own id) rfl rfl key message
  | updateClusterTopology id topology =>
    -- `UpdateClusterTopology` is `SetState` on the informer with the new other members
    exact h.setState { s.nodes id with
      otherMembers := topology.members.filter (·.id != (s.nodes id).myID) }
      (h.own id) rfl rfl topologyKey (pack topology)
  | getMemberStateDelta id targetMemberID =>
    refine h.update (h.own id) rfl (h.held id) fun st hst => ?_
    rcases List.mem_append.mp hst with hst | hst
    · exact h.sent st hst
    · rw [List.mem_singleton] at hst
      subst hst
      exact (s.nodes id).all_getMemberStateDelta targetMemberID (h.held id)
  | sendState id shuffled _ =>
    obtain ⟨offsets, heq⟩ := (s.nodes id).sendState_eq shuffled
    refine h.update (by rw [heq]; exact h.own id) (by rw [heq]) ?_ fun st hst => ?_
    · rw [heq]
      intro m k e he
      rw [Informer.get?_sendState_state] at he
      exact h.held id m k e he
    · rcases List.mem_append.mp hst with hst | hst
      · exact h.sent st hst
      · obtain ⟨p, hp, rfl⟩ := List.mem_map.mp hst
        exact (s.nodes id).all_sendState shuffled (h.held id) p hp
  | commitOffsets id =>
    rw [Informer.commitOffsets_eq]
    exact h.update (h.own id) rfl (h.held id) h.sent
  | receiveState id remoteState hbuilt =>
    rcases (s.nodes id).receiveState_eq remoteState with heq | ⟨cc, heq⟩
    · exact h.update (by rw [heq]; exact h.own id) (by rw [heq]) (by rw [heq]; exact h.held id) h.sent
    · exact h.update (by rw [heq]; exact h.own id) (by rw [heq]) (by
        rw [heq]; exact mergeState_all (h.held id) (h.sent _ hbuilt)) h.sent
  | addConsensusCheck id checkID check =>
    obtain ⟨cc, heq⟩ := (s.nodes id).addConsensusCheck_eq checkID check
    exact h.update (by rw [heq]; exact h.own id) (by rw [heq]) (by rw [heq]; exact h.held id) h.sent
  | removeConsensusCheck id checkID =>
    exact h.update (h.own id) rfl (h.held id) h.sent

theorem integrity_of_reachable {pack : ClusterTopology → α} {fanOut maxSend : String → Int}
    {s : GossipSystem α}
    (hs : Reachable (· = init fanOut maxSend) (GossipSystemStep pack) s) : s.Integrity :=
  reachable_induction (fun _ h => h ▸ integrity_init fanOut maxSend)
    (fun _ _ h hstep => h.step hstep) s hs

/-! ### Sequence numbers held never go down -/

/-- A value a node holds is below its member's sequence number. -/
theorem Integrity.held_le (h : s.Integrity) {n m k : String} {e : GossipKeyValue α}
    (he : (s.nodes n).state.get? m k = some e) : e.sequenceNumber ≤ (s.nodes m).localSeqNumber :=
  h.below ⟨m, k, e⟩ (h.held n m k e he)

theorem kept_setNode (s : GossipSystem α) {id : String} {inf : Informer α}
    (h : (s.nodes id).state.Kept inf.state) (n : String) :
    (s.nodes n).state.Kept ((s.setNode id inf).nodes n).state := by
  by_cases hn : n = id
  · subst hn
    rw [setNode_nodes_self]
    exact h
  · rw [setNode_nodes_of_ne s inf hn]
    exact GossipState.Kept.refl _

/-- A step keeps every value a node holds, or one with a higher sequence number. -/
theorem Integrity.kept_step {pack : ClusterTopology → α} {s s' : GossipSystem α} (h : s.Integrity)
    (hstep : GossipSystemStep pack s s') (n : String) :
    (s.nodes n).state.Kept (s'.nodes n).state := by
  -- only the member that steps changes; its own values are below its sequence number
  have hown : ∀ id key, ∀ e, (s.nodes id).state.get? (s.nodes id).myID key = some e →
      e.sequenceNumber ≤ (s.nodes id).localSeqNumber := by
    intro id key e he
    have hle := h.held_le he
    rwa [h.own id] at hle
  cases hstep with
  | setState id key message =>
    exact kept_setNode s ((s.nodes id).kept_setState key message (hown id key)) n
  | updateClusterTopology id topology =>
    exact kept_setNode s ({ s.nodes id with
      otherMembers := topology.members.filter (·.id != (s.nodes id).myID) }.kept_setState
        topologyKey (pack topology) (hown id topologyKey)) n
  | getMemberStateDelta id targetMemberID =>
    refine kept_setNode s ?_ n
    exact GossipState.Kept.refl _
  | sendState id shuffled _ =>
    obtain ⟨offsets, heq⟩ := (s.nodes id).sendState_eq shuffled
    refine kept_setNode s (GossipState.kept_of_get?_eq fun m k => ?_) n
    rw [heq, Informer.get?_sendState_state]
  | commitOffsets id =>
    rw [Informer.commitOffsets_eq]
    exact kept_setNode s (GossipState.Kept.refl _) n
  | receiveState id remoteState _ =>
    refine kept_setNode s ?_ n
    rcases (s.nodes id).receiveState_eq remoteState with heq | ⟨cc, heq⟩
    · rw [heq]
      exact GossipState.Kept.refl _
    · rw [heq]
      exact kept_mergeState _ _
  | addConsensusCheck id checkID check =>
    obtain ⟨cc, heq⟩ := (s.nodes id).addConsensusCheck_eq checkID check
    refine kept_setNode s ?_ n
    rw [heq]
    exact GossipState.Kept.refl _
  | removeConsensusCheck id checkID =>
    refine kept_setNode s ?_ n
    exact GossipState.Kept.refl _

theorem Integrity.reflTransGen {pack : ClusterTopology → α} {s s' : GossipSystem α}
    (h : s.Integrity) (hrun : Relation.ReflTransGen (GossipSystemStep pack) s s') : s'.Integrity :=
  Stable.reflTransGen (fun _ _ hstep hs => hs.step hstep) hrun h

/-- Over any run, a node keeps every value it holds, or one with a higher sequence number. -/
theorem Integrity.kept_reflTransGen {pack : ClusterTopology → α} {s s' : GossipSystem α}
    (h : s.Integrity) (hrun : Relation.ReflTransGen (GossipSystemStep pack) s s') (n : String) :
    (s.nodes n).state.Kept (s'.nodes n).state := by
  induction hrun with
  | refl => exact GossipState.Kept.refl _
  | tail hrun' hstep ih => exact ih.trans ((h.reflTransGen hrun').kept_step hstep n)

end GossipSystem

/-- In every reachable state, whatever a node holds for a member's key is a value that member
set under that key, with the sequence number it got; over any run from there, the node holds for
that key a value the member set, with a sequence number at least as high. -/
theorem gossip_state_integrity (pack : ClusterTopology → α) (fanOut maxSend : String → Int)
    {s s' : GossipSystem α}
    (hs : Reachable (· = GossipSystem.init fanOut maxSend) (GossipSystemStep pack) s)
    (hrun : Relation.ReflTransGen (GossipSystemStep pack) s s') (n m k : String)
    (e : GossipKeyValue α) (he : (s.nodes n).state.get? m k = some e) :
    (⟨m, k, e⟩ : Assignment α) ∈ s.assigned ∧
      ∃ e', (s'.nodes n).state.get? m k = some e' ∧ (⟨m, k, e'⟩ : Assignment α) ∈ s'.assigned ∧
        e.sequenceNumber ≤ e'.sequenceNumber := by
  have hinv := GossipSystem.integrity_of_reachable hs
  have hinv' := hinv.reflTransGen hrun
  obtain ⟨e', he', hle⟩ := hinv.kept_reflTransGen hrun n m k e he
  exact ⟨hinv.held n m k e he, e', he', hinv'.held n m k e' he', hle⟩

/-- Member `"a"` after setting `"k"` to `7`. -/
def setOnceSystem : GossipSystem ℕ :=
  (GossipSystem.init (fun _ => 3) (fun _ => 3)).setState "a" "k" 7

theorem gossip_state_integrity_after_set :
    Reachable (· = GossipSystem.init (fun _ => 3) (fun _ => 3)) (GossipSystemStep fun _ => 0)
        setOnceSystem ∧
      (setOnceSystem.nodes "a").state.get? "a" "k" = some ⟨1, 7⟩ ∧
      (⟨"a", "k", ⟨1, 7⟩⟩ : Assignment ℕ) ∈ setOnceSystem.assigned ∧
      ∃ e', (setOnceSystem.nodes "a").state.get? "a" "k" = some e' ∧
        (⟨"a", "k", e'⟩ : Assignment ℕ) ∈ setOnceSystem.assigned ∧ (1 : Int) ≤ e'.sequenceNumber := by
  have hs : Reachable (· = GossipSystem.init (fun _ => 3) (fun _ => 3)) (GossipSystemStep fun _ => 0)
      setOnceSystem :=
    Reachable.tail (Reachable.of_init rfl) (GossipSystemStep.setState _ "a" "k" 7)
  have he : (setOnceSystem.nodes "a").state.get? "a" "k" = some ⟨1, 7⟩ := by decide
  exact ⟨hs, he, gossip_state_integrity (fun _ => 0) (fun _ => 3) (fun _ => 3) hs
    Relation.ReflTransGen.refl "a" "a" "k" ⟨1, 7⟩ he⟩

end ProtoActor.Cluster
