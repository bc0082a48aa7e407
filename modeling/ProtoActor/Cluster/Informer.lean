import ProtoActor.Cluster.Consensus
import ProtoActor.Cluster.MemberList

/-!
# The informer

`cluster/informer.go`: the gossip state of one member, with the offsets it has committed toward
each other member.  `SetState` sets one of its own values, `UpdateClusterTopology` records the
other members and gossips the topology, `ReceiveState` merges a remote state, and `SendState`
sends the members of a shuffled copy of the other members a delta of the state each, until
`gossipFanOut` deltas are sent.

`GetMemberStateDelta` builds the delta toward a target: for this member and up to
`gossipMaxSend` others (in map order), the values whose sequence number is above the watermark
`committedOffsets["<target>.<member>"]`, and the new watermark, the highest sequence number sent.
The new watermarks are meant to wait in `pendingOffsets` until the delta's `CommitOffsets` runs
on a response; but `pendingOffsets` is `inf.committedOffsets` itself, not a copy.  So:

* `member_state_delta_commits_early`: once the delta is built, the informer's watermark toward
  the target already covers what the delta holds, before anything is sent; and
  `getMemberStateDelta_newer`: the delta holds only values above the watermark it had.
* `getMemberStateDelta_hasState`: `HasState`, the `reflect.DeepEqual` of the map with itself, is
  always true, and `commitOffsets_eq`: `CommitOffsets` changes nothing.
* `watermark_le_getMemberStateDelta`, `watermark_le_sendState`: watermarks never go down.

The consensus checks of the informer run with `activeMemberIDs`, which `UpdateClusterTopology`
builds and never stores, and no check ever sets its handler's result
(`tryGetConsensus_runOps`): after any sequence of `UpdateClusterTopology`, `SetState` and
`ReceiveState`, a freshly registered check answers `(nil, false)`.
-/

namespace ProtoActor.Cluster

open ProtoActor.Transition

variable {α : Type}

/-- `TopologyKey`. -/
def topologyKey : String :=
  "topology"

/-- `Informer`, without the logger, the throttler and `getBlockedMembers`, which only the
commented-out `purgeBannedMembers` would read. -/
structure Informer (α : Type) where
  myID : String
  localSeqNumber : Int
  state : GossipState α
  committedOffsets : AList (fun _ : String => Int)
  activeMemberIDs : List String
  otherMembers : List Member
  consensusChecks : ConsensusChecks α
  gossipFanOut : Int
  gossipMaxSend : Int

/-- `newInformer`. -/
def newInformer (myID : String) (fanOut maxSend : Int) : Informer α :=
  ⟨myID, 0, ⟨∅⟩, ∅, [], [], newConsensusChecks, fanOut, maxSend⟩

/-- `MemberStateDelta`; its `CommitOffsets` is `Informer.commitOffsets`. -/
structure MemberStateDelta (α : Type) where
  targetMemberID : String
  hasState : Bool
  state : GossipState α

/-- The read `offsets[key]` of a Go map of offsets: zero when the key is missing. -/
def offsetOf (offsets : AList (fun _ : String => Int)) (key : String) : Int :=
  (offsets.lookup key).getD 0

/-- The watermark key of a member's values toward a target: `"<target>.<member>"`. -/
def watermarkKey (targetMemberID memberID : String) : String :=
  targetMemberID ++ "." ++ memberID

/-- The loop of `GetMemberStateDelta` over a member's values: keep those above the watermark,
and the highest sequence number kept. -/
def deltaValue (watermark : Int) (acc : GossipMemberState α × Int)
    (e : Σ _ : String, GossipKeyValue α) : GossipMemberState α × Int :=
  if e.2.sequenceNumber ≤ watermark then acc
  else (⟨acc.1.values.insert e.1 e.2⟩, max acc.2 e.2.sequenceNumber)

/-- The loop of `GetMemberStateDelta` over the chosen members, on the new state and the offsets
map: the map it reads the watermark from is the one it writes the new watermark to. -/
def deltaMember (targetMemberID : String) (acc : GossipState α × AList (fun _ : String => Int))
    (member : String × GossipMemberState α) : GossipState α × AList (fun _ : String => Int) :=
  let key := watermarkKey targetMemberID member.1
  let watermark := offsetOf acc.2 key
  let values := runFrom (deltaValue watermark) (⟨∅⟩, watermark) member.2.values.entries
  -- do not send member states that we have no new data for
  if values.1.values.entries.length > 0 then
    (⟨acc.1.members.insert member.1 values.1⟩, acc.2.insert key values.2)
  else acc

/-- The other members `GetMemberStateDelta` takes, in map order, from the count so far: each is
counted, and the loop stops once the count passes `gossipMaxSend`. -/
def selectMembers (myID : String) (gossipMaxSend : Int) :
    Int → List (Σ _ : String, GossipMemberState α) → List (String × GossipMemberState α)
  | _, [] => []
  | count, e :: rest =>
    if e.1 = myID then selectMembers myID gossipMaxSend count rest
    else if count + 1 > gossipMaxSend then [(e.1, e.2)]
    else (e.1, e.2) :: selectMembers myID gossipMaxSend (count + 1) rest

/-- The loop of `commitPendingOffsets`: raise the committed offset of a key to the one given,
or set it if there is none. -/
def commitOffset (committed : AList (fun _ : String => Int)) (e : Σ _ : String, Int) :
    AList (fun _ : String => Int) :=
  match committed.lookup e.1 with
  | some offset => if offset < e.2 then committed.insert e.1 e.2 else committed
  | none => committed.insert e.1 e.2

namespace Informer

/-- The committed watermark under a key. -/
def watermark (inf : Informer α) (key : String) : Int :=
  offsetOf inf.committedOffsets key

/-! ### Consensus checks -/

/-- Run the stored check `id` on the state and the active member ids. -/
def runCheck (inf : Informer α) (id : String) : Informer α :=
  match inf.consensusChecks.checks.lookup id with
  | none => inf
  | some c =>
    { inf with
      consensusChecks := { inf.consensusChecks with
        checks := inf.consensusChecks.checks.insert id (c.check inf.state inf.activeMemberIDs) } }

/-- `checkConsensusKey`. -/
def checkConsensusKey (inf : Informer α) (updatedKey : String) : Informer α :=
  runFrom runCheck inf (inf.consensusChecks.getByUpdatedKey updatedKey)

/-- `CheckConsensus`. -/
def checkConsensus (inf : Informer α) (updatedKeys : List String) : Informer α :=
  runFrom runCheck inf (inf.consensusChecks.getByUpdatedKeys updatedKeys)

/-- `AddConsensusCheck`: store the check, then run it once. -/
def addConsensusCheck (inf : Informer α) (id : String) (check : ConsensusCheck α) : Informer α :=
  { inf with consensusChecks := inf.consensusChecks.add id check }.runCheck id

/-- `RemoveConsensusCheck`. -/
def removeConsensusCheck (inf : Informer α) (id : String) : Informer α :=
  { inf with consensusChecks := inf.consensusChecks.remove id }

/-- `TryGetConsensus` of the handler of the check stored under `id`. -/
def tryGetConsensus (inf : Informer α) (id : String) : Option (Option UInt64 × Bool) :=
  (inf.consensusChecks.checks.lookup id).map ConsensusCheck.tryGetConsensus

/-! ### Setting and receiving state -/

/-- `SetState`: this member's value of the key gets its next sequence number.  (A missing own
member state is only logged.) -/
def setState (inf : Informer α) (key : String) (message : α) : Informer α :=
  let r := setKey inf.state key message inf.myID inf.localSeqNumber
  { inf with state := r.1, localSeqNumber := r.2 }.checkConsensusKey key

/-- `UpdateClusterTopology`: the other members become those of the topology, and the topology,
packed by `pack`, is set under `topologyKey`.  The set of active ids it builds is never stored. -/
def updateClusterTopology (pack : ClusterTopology → α) (inf : Informer α)
    (topology : ClusterTopology) : Informer α :=
  { inf with otherMembers := topology.members.filter (·.id != inf.myID) }.setState topologyKey
    (pack topology)

/-- `GetState`: each member's value of the key, for the members that have one. -/
def getState (inf : Informer α) (key : String) : List (String × GossipKeyValue α) :=
  inf.state.members.entries.filterMap fun e => (e.2.values.lookup key).map (e.1, ·)

/-- `ReceiveState`: merge the remote state; if anything was taken, keep the merged state and run
the checks of the updated keys.  Returns the updates. -/
def receiveState (inf : Informer α) (remoteState : GossipState α) :
    List (GossipUpdate α) × Informer α :=
  let m := mergeState inf.state remoteState
  if m.updates.isEmpty then ([], inf)
  else (m.updates, { inf with state := m.mergedState }.checkConsensus m.updatedKeys)

/-! ### Deltas and offsets -/

/-- `GetMemberStateDelta`. -/
def getMemberStateDelta (inf : Informer α) (targetMemberID : String) :
    MemberStateDelta α × Informer α :=
  -- ourselves first, if we have state, then the others until the count passes `gossipMaxSend`
  let self := (inf.state.members.lookup inf.myID).map fun member => (inf.myID, member)
  let members := self.toList ++
    selectMembers inf.myID inf.gossipMaxSend (if self.isSome then 1 else 0) inf.state.members.entries
  -- `pendingOffsets` is `inf.committedOffsets` itself: every write to it is a commit
  let acc := runFrom (deltaMember targetMemberID) (⟨∅⟩, inf.committedOffsets) members
  let pendingOffsets := acc.2
  let committedOffsets := pendingOffsets
  -- so `reflect.DeepEqual` compares the map with itself
  (⟨targetMemberID, decide (committedOffsets.entries = pendingOffsets.entries), acc.1⟩,
    { inf with committedOffsets })

/-- `commitPendingOffsets`: raise the committed offsets to those given. -/
def commitPendingOffsets (inf : Informer α) (offsets : AList (fun _ : String => Int)) :
    Informer α :=
  { inf with committedOffsets := runFrom commitOffset inf.committedOffsets offsets.entries }

/-- `MemberStateDelta.CommitOffsets`: `commitPendingOffsets` of the delta's `pendingOffsets`,
which is the informer's own `committedOffsets` map. -/
def commitOffsets (inf : Informer α) : Informer α :=
  inf.commitPendingOffsets inf.committedOffsets

/-- The loop of `SendState` over the shuffled members, from the number of deltas sent so far:
the deltas it sends, each with its member. -/
def sendStateFrom (fanOutCount : Int) :
    Informer α → List Member → List (MemberStateDelta α × Member) × Informer α
  | inf, [] => ([], inf)
  | inf, member :: rest =>
    let r := inf.getMemberStateDelta member.id
    let inf := r.2
    -- nothing has changed: skip it
    if !r.1.hasState then sendStateFrom fanOutCount inf rest
    else if fanOutCount + 1 ≥ inf.gossipFanOut then ([(r.1, member)], inf)
    else
      let sent := sendStateFrom (fanOutCount + 1) inf rest
      ((r.1, member) :: sent.1, sent.2)

/-- `SendState`, given the shuffled copy of the other members: first every other member gets
a member state. -/
def sendState (inf : Informer α) (shuffled : List Member) :
    List (MemberStateDelta α × Member) × Informer α :=
  let state := runFrom (fun state (member : Member) => (ensureMemberStateExists state member.id).2)
    inf.state inf.otherMembers
  sendStateFrom 0 { inf with state } shuffled

end Informer

/-! ### Watermarks move when a delta is built -/

theorem offsetOf_insert (offsets : AList (fun _ : String => Int)) (key key' : String) (v : Int) :
    offsetOf (offsets.insert key v) key' = if key' = key then v else offsetOf offsets key' := by
  by_cases h : key' = key
  · subst h; simp [offsetOf, AList.lookup_insert]
  · simp [offsetOf, AList.lookup_insert_ne h, h]

/-- What the value loop keeps: only values above the watermark, and a new watermark at least the
watermark and every sequence number kept. -/
def ValuesAbove (watermark : Int) (acc : GossipMemberState α × Int) : Prop :=
  watermark ≤ acc.2 ∧ ∀ k v, acc.1.values.lookup k = some v →
    watermark < v.sequenceNumber ∧ v.sequenceNumber ≤ acc.2

theorem valuesAbove_deltaValue {watermark : Int} {acc : GossipMemberState α × Int}
    (h : ValuesAbove watermark acc) (e : Σ _ : String, GossipKeyValue α) :
    ValuesAbove watermark (deltaValue watermark acc e) := by
  obtain ⟨hle, hvals⟩ := h
  unfold deltaValue
  split_ifs with hskip
  · exact ⟨hle, hvals⟩
  refine ⟨hle.trans (le_max_left _ _), fun k v hk => ?_⟩
  by_cases hke : k = e.1
  · -- the value just kept
    subst hke
    rw [AList.lookup_insert, Option.some_inj] at hk
    subst hk
    exact ⟨lt_of_not_ge hskip, le_max_right _ _⟩
  · rw [AList.lookup_insert_ne hke] at hk
    obtain ⟨hlt, hle'⟩ := hvals k v hk
    exact ⟨hlt, hle'.trans (le_max_left _ _)⟩

theorem valuesAbove_runFrom (watermark : Int) (es : List (Σ _ : String, GossipKeyValue α)) :
    ValuesAbove watermark (runFrom (deltaValue watermark) (⟨∅⟩, watermark) es) :=
  runFrom_induction (P := ValuesAbove watermark) (fun _ e h => valuesAbove_deltaValue h e)
    ⟨le_rfl, fun k v hk => by simp [AList.lookup_empty] at hk⟩ es

/-- One turn of the member loop only raises offsets. -/
theorem offsetOf_le_deltaMember (targetMemberID : String)
    (acc : GossipState α × AList (fun _ : String => Int)) (member : String × GossipMemberState α)
    (key : String) : offsetOf acc.2 key ≤ offsetOf (deltaMember targetMemberID acc member).2 key := by
  dsimp only [deltaMember]
  split_ifs
  · rw [offsetOf_insert]
    split_ifs with hkey
    · subst hkey; exact (valuesAbove_runFrom _ _).1
    · exact le_rfl
  · exact le_rfl

/-- What the member loop keeps toward a target, from the offsets it started with: offsets only
go up, and every value of the new state is above the first watermark of its member and within
the current one. -/
structure DeltaAbove (targetMemberID : String) (offsets : AList (fun _ : String => Int))
    (acc : GossipState α × AList (fun _ : String => Int)) : Prop where
  mono : ∀ key, offsetOf offsets key ≤ offsetOf acc.2 key
  sent : ∀ m k v, acc.1.get? m k = some v →
    offsetOf offsets (watermarkKey targetMemberID m) < v.sequenceNumber ∧
      v.sequenceNumber ≤ offsetOf acc.2 (watermarkKey targetMemberID m)

theorem deltaAbove_deltaMember {targetMemberID : String} {offsets : AList (fun _ : String => Int)}
    {acc : GossipState α × AList (fun _ : String => Int)} (h : DeltaAbove targetMemberID offsets acc)
    (member : String × GossipMemberState α) :
    DeltaAbove targetMemberID offsets (deltaMember targetMemberID acc member) := by
  have hmono := offsetOf_le_deltaMember targetMemberID acc member
  refine ⟨fun key => (h.mono key).trans (hmono key), fun m k v hv => ?_⟩
  dsimp only [deltaMember] at hv ⊢
  split_ifs at hv ⊢ with hsome
  · rw [GossipState.get?_insert] at hv
    split_ifs at hv with hm
    · -- a value of the member just processed: above the watermark read, which was the current one
      subst hm
      obtain ⟨-, hvals⟩ := valuesAbove_runFrom (offsetOf acc.2 (watermarkKey targetMemberID member.1))
        (member.2.values.entries)
      obtain ⟨hlt, hle⟩ := hvals k v hv
      refine ⟨(h.mono _).trans_lt hlt, ?_⟩
      rw [offsetOf_insert, if_pos rfl]
      exact hle
    · obtain ⟨hlt, hle⟩ := h.sent m k v hv
      exact ⟨hlt, hle.trans (by simpa [deltaMember, hsome] using hmono _)⟩
  · exact h.sent m k v hv

theorem Informer.deltaAbove_getMemberStateDelta (inf : Informer α) (targetMemberID : String) :
    DeltaAbove targetMemberID inf.committedOffsets
      ((inf.getMemberStateDelta targetMemberID).1.state,
        (inf.getMemberStateDelta targetMemberID).2.committedOffsets) :=
  runFrom_induction (P := DeltaAbove targetMemberID inf.committedOffsets)
    (fun _ m h => deltaAbove_deltaMember h m) ⟨fun _ => le_rfl, fun m k v hv => by simp at hv⟩ _

/-- Building a delta never lowers a watermark. -/
theorem Informer.watermark_le_getMemberStateDelta (inf : Informer α) (targetMemberID key : String) :
    inf.watermark key ≤ (inf.getMemberStateDelta targetMemberID).2.watermark key :=
  (inf.deltaAbove_getMemberStateDelta targetMemberID).mono key

/-- A delta holds only values above the watermark its member had toward the target. -/
theorem Informer.getMemberStateDelta_newer (inf : Informer α) {targetMemberID m k : String}
    {v : GossipKeyValue α} (hv : (inf.getMemberStateDelta targetMemberID).1.state.get? m k = some v) :
    inf.watermark (watermarkKey targetMemberID m) < v.sequenceNumber :=
  ((inf.deltaAbove_getMemberStateDelta targetMemberID).sent m k v hv).1

/-- `HasState` compares the committed offsets with themselves. -/
@[simp] theorem Informer.getMemberStateDelta_hasState (inf : Informer α) (targetMemberID : String) :
    (inf.getMemberStateDelta targetMemberID).1.hasState = true := by
  simp [Informer.getMemberStateDelta]

/-- `CommitOffsets` raises the committed offsets to themselves: it changes nothing. -/
theorem Informer.commitOffsets_eq (inf : Informer α) : inf.commitOffsets = inf := by
  have hfold := @runFrom_induction_mem _ _ commitOffset (· = inf.committedOffsets)
    inf.committedOffsets.entries (fun committed e he hc => by
      -- every entry of the map is what the map holds for its key
      have hlookup : committed.lookup e.1 = some e.2 := by
        rw [hc]; exact AList.mem_lookup_iff.mpr he
      simp only [commitOffset, hlookup, lt_self_iff_false, if_false]
      exact hc) _ rfl
  simp only [Informer.commitOffsets, Informer.commitPendingOffsets]
  rw [hfold]

/-! ### How many members a delta holds

The member loop counts ourselves first and breaks only once the count has passed
`gossipMaxSend`, after adding the member that passed it: a delta holds up to `gossipMaxSend + 1`
member states.
-/

/-- Member `"a"` with `gossipMaxSend` one, holding its own value and one of member `"b"`, each at
sequence number one, with nothing committed. -/
def deltaInformer : Informer String :=
  { newInformer "a" 3 1 with
    state := ⟨((∅ : AList _).insert "a" ⟨(∅ : AList _).insert "k" ⟨1, "x"⟩⟩).insert "b"
      ⟨(∅ : AList _).insert "k" ⟨1, "y"⟩⟩⟩ }

/-- Building the delta toward `"t"` commits the watermark `"t.a"` before anything is sent, puts
two member states in a delta of `gossipMaxSend` one, and an informer with no state at all gets
a delta with no member state and `HasState` true. -/
theorem member_state_delta_commits_early :
    deltaInformer.watermark (watermarkKey "t" "a") = 0 ∧
      (deltaInformer.getMemberStateDelta "t").2.watermark (watermarkKey "t" "a") = 1 ∧
      (deltaInformer.getMemberStateDelta "t").1.state.members.entries.length = 2 ∧
      ((newInformer "a" 3 1 : Informer String).getMemberStateDelta "t").1.state.members.entries =
        [] ∧
      ((newInformer "a" 3 1 : Informer String).getMemberStateDelta "t").1.hasState = true := by
  decide

/-! ### Sending state -/

/-- What `SendState`'s loop does to watermarks and sends: watermarks only go up, and each delta
holds only values above the watermark its member had toward the delta's member before the loop. -/
theorem Informer.sendStateFrom_spec (fanOutCount : Int) (inf : Informer α) (members : List Member) :
    (∀ key, inf.watermark key ≤ (sendStateFrom fanOutCount inf members).2.watermark key) ∧
    ∀ p ∈ (sendStateFrom fanOutCount inf members).1, ∀ m k v, p.1.state.get? m k = some v →
      inf.watermark (watermarkKey p.2.id m) < v.sequenceNumber := by
  induction members generalizing fanOutCount inf with
  | nil => exact ⟨fun _ => le_rfl, by simp [sendStateFrom]⟩
  | cons member rest ih =>
    -- the delta toward `member`, and the informer after it
    have hmono := inf.watermark_le_getMemberStateDelta member.id
    have hfirst : ∀ m k v, (inf.getMemberStateDelta member.id).1.state.get? m k = some v →
        inf.watermark (watermarkKey member.id m) < v.sequenceNumber :=
      fun _ _ _ hv => inf.getMemberStateDelta_newer hv
    simp only [sendStateFrom, getMemberStateDelta_hasState, Bool.not_true, Bool.false_eq_true,
      if_false]
    split_ifs
    · exact ⟨hmono, by simpa using hfirst⟩
    · obtain ⟨ihmono, ihsent⟩ := ih (fanOutCount + 1) (inf.getMemberStateDelta member.id).2
      refine ⟨fun key => (hmono key).trans (ihmono key), ?_⟩
      intro p hp m k v hv
      rcases List.mem_cons.mp hp with rfl | hp
      · exact hfirst m k v hv
      · exact (hmono _).trans_lt (ihsent p hp m k v hv)

theorem Informer.watermark_le_sendState (inf : Informer α) (shuffled : List Member) (key : String) :
    inf.watermark key ≤ (inf.sendState shuffled).2.watermark key :=
  (sendStateFrom_spec 0 _ shuffled).1 key

/-- Every delta `SendState` sends holds only values above the watermark its member had toward
the delta's member. -/
theorem Informer.sendState_newer (inf : Informer α) (shuffled : List Member)
    {p : MemberStateDelta α × Member} (hp : p ∈ (inf.sendState shuffled).1) {m k : String}
    {v : GossipKeyValue α} (hv : p.1.state.get? m k = some v) :
    inf.watermark (watermarkKey p.2.id m) < v.sequenceNumber :=
  (sendStateFrom_spec 0 _ shuffled).2 p hp m k v hv

/-! ### What the checks change -/

namespace Informer

@[simp] theorem runCheck_committedOffsets (inf : Informer α) (id : String) :
    (inf.runCheck id).committedOffsets = inf.committedOffsets := by
  unfold runCheck; split <;> rfl

/-- Running a check leaves every handler's result as it was: the check only clears its flag. -/
theorem tryGetConsensus_runCheck (inf : Informer α) (id' id : String) :
    (inf.runCheck id').tryGetConsensus id = inf.tryGetConsensus id := by
  unfold runCheck
  cases hc : inf.consensusChecks.checks.lookup id' with
  | none => rfl
  | some c =>
    by_cases h : id = id'
    · subst h
      simp [tryGetConsensus, AList.lookup_insert, hc, ConsensusCheck.check_eq,
        ConsensusCheck.tryGetConsensus]
    · simp [tryGetConsensus, AList.lookup_insert_ne h]

theorem committedOffsets_runFrom_runCheck (inf : Informer α) (ids : List String) :
    (runFrom runCheck inf ids).committedOffsets = inf.committedOffsets :=
  runFrom_induction (P := fun (s : Informer α) => s.committedOffsets = inf.committedOffsets)
    (fun s _ h => by rw [runCheck_committedOffsets, h]) rfl ids

theorem tryGetConsensus_runFrom_runCheck (inf : Informer α) (ids : List String) (id : String) :
    (runFrom runCheck inf ids).tryGetConsensus id = inf.tryGetConsensus id :=
  runFrom_induction (P := fun (s : Informer α) => s.tryGetConsensus id = inf.tryGetConsensus id)
    (fun s _ h => by rw [tryGetConsensus_runCheck, h]) rfl ids

@[simp] theorem committedOffsets_setState (inf : Informer α) (key : String) (message : α) :
    (inf.setState key message).committedOffsets = inf.committedOffsets :=
  committedOffsets_runFrom_runCheck _ _

@[simp] theorem committedOffsets_updateClusterTopology (pack : ClusterTopology → α)
    (inf : Informer α) (topology : ClusterTopology) :
    (inf.updateClusterTopology pack topology).committedOffsets = inf.committedOffsets :=
  committedOffsets_setState _ _ _

@[simp] theorem committedOffsets_receiveState (inf : Informer α) (remoteState : GossipState α) :
    (inf.receiveState remoteState).2.committedOffsets = inf.committedOffsets := by
  dsimp only [receiveState]
  split_ifs
  · rfl
  · exact committedOffsets_runFrom_runCheck _ _

theorem tryGetConsensus_setState (inf : Informer α) (key : String) (message : α) (id : String) :
    (inf.setState key message).tryGetConsensus id = inf.tryGetConsensus id :=
  tryGetConsensus_runFrom_runCheck _ _ id

theorem tryGetConsensus_receiveState (inf : Informer α) (remoteState : GossipState α) (id : String) :
    (inf.receiveState remoteState).2.tryGetConsensus id = inf.tryGetConsensus id := by
  dsimp only [receiveState]
  split_ifs
  · rfl
  · exact tryGetConsensus_runFrom_runCheck _ _ id

/-- A check registered by `AddConsensusCheck` answers what its handler held. -/
theorem tryGetConsensus_addConsensusCheck (inf : Informer α) (id : String) (c : ConsensusCheck α) :
    (inf.addConsensusCheck id c).tryGetConsensus id = some c.tryGetConsensus := by
  rw [addConsensusCheck, tryGetConsensus_runCheck]
  -- `registerAffectedKeys` touches only the index
  simp [tryGetConsensus, ConsensusChecks.add, ConsensusChecks.registerAffectedKeys,
    AList.lookup_insert]

end Informer

/-! ### Topology consensus is never reported -/

/-- The informer operations of the gossip actor that change its gossip state. -/
inductive InformerOp (α : Type)
  | updateClusterTopology (topology : ClusterTopology)
  | setState (key : String) (message : α)
  | receiveState (remoteState : GossipState α)

/-- One operation, with `pack` the packing of topologies. -/
def InformerOp.apply (pack : ClusterTopology → α) (inf : Informer α) : InformerOp α → Informer α
  | .updateClusterTopology topology => inf.updateClusterTopology pack topology
  | .setState key message => inf.setState key message
  | .receiveState remoteState => (inf.receiveState remoteState).2

theorem InformerOp.tryGetConsensus_apply (pack : ClusterTopology → α) (inf : Informer α)
    (op : InformerOp α) (id : String) : (op.apply pack inf).tryGetConsensus id = inf.tryGetConsensus id := by
  cases op with
  | updateClusterTopology topology => exact Informer.tryGetConsensus_setState _ _ _ id
  | setState key message => exact Informer.tryGetConsensus_setState _ _ _ id
  | receiveState remoteState => exact Informer.tryGetConsensus_receiveState _ _ id

/-- After a consensus check is registered as `Build` makes it, and any operations follow, its
handler still answers `(nil, false)`: whatever the members and their values, no consensus is
ever reported. -/
theorem tryGetConsensus_runOps (pack : ClusterTopology → α) (inf : Informer α) (id : String)
    (ccb : ConsensusCheckBuilder α) (ops : List (InformerOp α)) :
    (runFrom (InformerOp.apply pack) (inf.addConsensusCheck id ccb.build) ops).tryGetConsensus id =
      some (none, false) := by
  have hrun := @runFrom_induction _ _ (InformerOp.apply pack)
    (fun s => s.tryGetConsensus id = (inf.addConsensusCheck id ccb.build).tryGetConsensus id)
    (fun s op h => by rw [InformerOp.tryGetConsensus_apply, h]) _ rfl ops
  rw [hrun, Informer.tryGetConsensus_addConsensusCheck]
  rfl

/-- A topology of one member, `"a"`, whose hash field is `7`. -/
def soloTopology : ClusterTopology :=
  ⟨7, [⟨"127.0.0.1", 8090, "a", []⟩], [], []⟩

/-- The informer of member `"a"` with the topology check of `InitializeTopologyConsensus`
registered under the id `"c"`, after `UpdateClusterTopology` of `soloTopology`; gossip values
are the topologies themselves, and the check reads their hash. -/
def soloInformer : Informer ClusterTopology :=
  ((newInformer "a" 3 3).addConsensusCheck "c"
    (newConsensusCheckBuilder topologyKey ClusterTopology.topologyHash).build).updateClusterTopology
    id soloTopology

theorem solo_topology_consensus_unreported :
    soloTopology.members.map Member.id = ["a"] ∧
      (soloInformer.getState topologyKey).map (fun e => (e.1, e.2.value.topologyHash)) = [("a", 7)] ∧
      soloInformer.tryGetConsensus "c" = some (none, false) :=
  ⟨by decide, by decide, tryGetConsensus_runOps id (newInformer "a" 3 3) "c"
    (newConsensusCheckBuilder topologyKey ClusterTopology.topologyHash)
    [.updateClusterTopology soloTopology]⟩

end ProtoActor.Cluster
