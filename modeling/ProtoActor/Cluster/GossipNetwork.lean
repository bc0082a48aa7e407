import ProtoActor.Cluster.Informer

/-!
# Gossip between informers

`cluster/gossip_actor.go`: every member runs a gossip actor over its informer.  On
`SendGossipStateRequest` it runs `SendState`, sending each delta in a `GossipRequest` to the
gossip actor at the member's address (`sendGossipForMember`); the request's continuation runs
the delta's `CommitOffsets` when a `GossipResponse` comes back, and nothing when it times out.
On a `GossipRequest` the receiver merges the state, builds a delta toward the request's
`MemberId` if its member list knows it, and answers with an empty `GossipResponse` (the acking
that would send the delta back is turned off).

`GossipNetwork` holds the informer of each address, the requests and responses in flight, and
the requests their target has received and answered.  `GossipStep` is any member's handler, as
one atomic step, in any interleaving, or the loss of a request or a response.

Since `GetMemberStateDelta` commits its watermarks when it builds a delta, a lost request is
never sent again: `Unsent.stable` says that once a sender's watermark toward a target covers a
sequence number, and no request from it to the target holds the value at or below it, none ever
will.  `lost_gossip_request_skips_entry` follows a run in which this happens to a value that the
target has never received.
-/

namespace ProtoActor.Cluster

open ProtoActor.Transition

variable {α : Type}

/-- A `GossipRequest` in flight: its `MemberId` (the target's id) and `State`, with the address
of the gossip actor that sent it and the member it was sent to. -/
structure GossipRequest (α : Type) where
  sender : String
  target : Member
  memberId : String
  state : GossipState α

/-- A `GossipResponse` in flight to the continuation of the gossip actor at `requester`. -/
structure GossipResponse (α : Type) where
  requester : String
  state : Option (GossipState α)

/-! ### The gossip actor's handlers -/

/-- `sendGossipForMember`: the request carrying one delta. -/
def sendGossipForMember (sender : String) (p : MemberStateDelta α × Member) : GossipRequest α :=
  ⟨sender, p.2, p.2.id, p.1.state⟩

/-- `onSendGossipState` of the gossip actor at `sender`, given the shuffled other members. -/
def onSendGossipState (sender : String) (inf : Informer α) (shuffled : List Member) :
    List (GossipRequest α) × Informer α :=
  let r := inf.sendState shuffled
  (r.1.map (sendGossipForMember sender), r.2)

/-- `onGossipRequest`; `known` is whether the member list contains the request's `MemberId`. -/
def onGossipRequest (inf : Informer α) (r : GossipRequest α) (known : Bool) :
    GossipResponse α × Informer α :=
  let inf := (inf.receiveState r.state).2
  -- the delta is built, and dropped: acking is turned off
  let inf := if known then (inf.getMemberStateDelta r.memberId).2 else inf
  (⟨r.sender, none⟩, inf)

/-- The continuation of `sendGossipForMember` on a `GossipResponse`. -/
def onGossipResponse (inf : Informer α) (resp : GossipResponse α) : Informer α :=
  let inf := inf.commitOffsets
  match resp.state with
  | some state => (inf.receiveState state).2
  | none => inf

/-! ### The network -/

/-- The informer at each address, the messages in flight, and the requests their target has
received and answered. -/
structure GossipNetwork (α : Type) where
  nodes : String → Informer α
  requests : List (GossipRequest α)
  responses : List (GossipResponse α)
  answered : List (GossipRequest α)

namespace GossipNetwork

/-- Replace the informer at an address. -/
def setNode (net : GossipNetwork α) (addr : String) (inf : Informer α) : GossipNetwork α :=
  { net with nodes := Function.update net.nodes addr inf }

/-- `SetState` at an address. -/
def setState (net : GossipNetwork α) (addr key : String) (message : α) : GossipNetwork α :=
  net.setNode addr ((net.nodes addr).setState key message)

/-- `UpdateClusterTopology` at an address. -/
def updateClusterTopology (pack : ClusterTopology → α) (net : GossipNetwork α) (addr : String)
    (topology : ClusterTopology) : GossipNetwork α :=
  net.setNode addr ((net.nodes addr).updateClusterTopology pack topology)

/-- `onSendGossipState` at an address. -/
def sendState (net : GossipNetwork α) (addr : String) (shuffled : List Member) :
    GossipNetwork α :=
  let r := onSendGossipState addr (net.nodes addr) shuffled
  { net.setNode addr r.2 with requests := net.requests ++ r.1 }

/-- The `i`th request in flight, `r`, reaches the gossip actor at its target's address. -/
def deliver (net : GossipNetwork α) (i : Nat) (r : GossipRequest α) (known : Bool) :
    GossipNetwork α :=
  let o := onGossipRequest (net.nodes r.target.address) r known
  { net.setNode r.target.address o.2 with
    requests := net.requests.eraseIdx i
    responses := net.responses ++ [o.1]
    answered := net.answered ++ [r] }

/-- The `i`th response in flight, `resp`, reaches its requester's continuation. -/
def respond (net : GossipNetwork α) (i : Nat) (resp : GossipResponse α) : GossipNetwork α :=
  { net.setNode resp.requester (onGossipResponse (net.nodes resp.requester) resp) with
    responses := net.responses.eraseIdx i }

end GossipNetwork

/-- One step of the network: a handler of one gossip actor, or a lost message. -/
inductive GossipStep (pack : ClusterTopology → α) : GossipNetwork α → GossipNetwork α → Prop
  | setState (net : GossipNetwork α) (addr key : String) (message : α) :
      GossipStep pack net (net.setState addr key message)
  | updateClusterTopology (net : GossipNetwork α) (addr : String) (topology : ClusterTopology) :
      GossipStep pack net (net.updateClusterTopology pack addr topology)
  | sendState (net : GossipNetwork α) (addr : String) (shuffled : List Member)
      (h : shuffled.Perm (net.nodes addr).otherMembers) :
      GossipStep pack net (net.sendState addr shuffled)
  | deliver (net : GossipNetwork α) (i : Nat) (r : GossipRequest α) (known : Bool)
      (h : net.requests[i]? = some r) :
      GossipStep pack net (net.deliver i r known)
  | dropRequest (net : GossipNetwork α) (i : Nat) :
      GossipStep pack net { net with requests := net.requests.eraseIdx i }
  | respond (net : GossipNetwork α) (i : Nat) (resp : GossipResponse α)
      (h : net.responses[i]? = some resp) :
      GossipStep pack net (net.respond i resp)
  | dropResponse (net : GossipNetwork α) (i : Nat) :
      GossipStep pack net { net with responses := net.responses.eraseIdx i }

/-! ### Watermarks only go up -/

theorem watermark_le_onSendGossipState (sender : String) (inf : Informer α)
    (shuffled : List Member) (key : String) :
    inf.watermark key ≤ (onSendGossipState sender inf shuffled).2.watermark key :=
  inf.watermark_le_sendState shuffled key

theorem watermark_le_onGossipRequest (inf : Informer α) (r : GossipRequest α) (known : Bool)
    (key : String) : inf.watermark key ≤ (onGossipRequest inf r known).2.watermark key := by
  have hrecv : (inf.receiveState r.state).2.watermark key = inf.watermark key := by
    simp [Informer.watermark]
  dsimp only [onGossipRequest]
  split_ifs
  · exact hrecv.symm.le.trans (Informer.watermark_le_getMemberStateDelta _ _ _)
  · exact hrecv.symm.le

theorem watermark_onGossipResponse (inf : Informer α) (resp : GossipResponse α) (key : String) :
    (onGossipResponse inf resp).watermark key = inf.watermark key := by
  unfold onGossipResponse
  rw [Informer.commitOffsets_eq]
  cases resp.state <;> simp [Informer.watermark]

theorem GossipNetwork.watermark_setNode (net : GossipNetwork α) (addr : String)
    (inf : Informer α) (a key : String) :
    ((net.setNode addr inf).nodes a).watermark key =
      if a = addr then inf.watermark key else (net.nodes a).watermark key := by
  unfold GossipNetwork.setNode
  by_cases h : a = addr
  · subst h; simp
  · simp [h]

/-- A node replaced by one whose watermarks are at least its own lowers no watermark. -/
theorem GossipNetwork.watermark_le_setNode (net : GossipNetwork α) {addr : String}
    {inf : Informer α} (hinf : ∀ key, (net.nodes addr).watermark key ≤ inf.watermark key)
    (a key : String) : (net.nodes a).watermark key ≤ ((net.setNode addr inf).nodes a).watermark key := by
  rw [GossipNetwork.watermark_setNode]
  split_ifs with h
  · subst h; exact hinf key
  · exact le_rfl

/-- No step lowers a watermark of any node. -/
theorem GossipStep.watermark_le {pack : ClusterTopology → α} {net net' : GossipNetwork α}
    (hstep : GossipStep pack net net') (a key : String) :
    (net.nodes a).watermark key ≤ (net'.nodes a).watermark key := by
  cases hstep with
  | setState addr k message =>
    exact net.watermark_le_setNode (fun key => by simp [Informer.watermark]) a key
  | updateClusterTopology addr topology =>
    exact net.watermark_le_setNode (fun key => by simp [Informer.watermark]) a key
  | sendState addr shuffled _ =>
    exact net.watermark_le_setNode (watermark_le_onSendGossipState addr _ shuffled) a key
  | deliver i r known _ =>
    exact net.watermark_le_setNode (watermark_le_onGossipRequest _ r known) a key
  | dropRequest i => exact le_rfl
  | respond i resp _ =>
    exact net.watermark_le_setNode (fun key => (watermark_onGossipResponse _ resp key).symm.le) a key
  | dropResponse i => exact le_rfl

/-! ### A value behind the watermark is never sent again -/

/-- What `SendState` sends from the node at `sender`: requests from `sender`, holding only values
above the watermark toward their `MemberId`. -/
theorem onSendGossipState_newer {sender : String} {inf : Informer α} {shuffled : List Member}
    {r : GossipRequest α} (hr : r ∈ (onSendGossipState sender inf shuffled).1) :
    r.sender = sender ∧ ∀ m k v, r.state.get? m k = some v →
      inf.watermark (watermarkKey r.memberId m) < v.sequenceNumber := by
  obtain ⟨p, hp, rfl⟩ := List.mem_map.mp hr
  exact ⟨rfl, fun m k v hv => inf.sendState_newer shuffled hp hv⟩

/-- The sender at `addr` has committed its watermark toward `t` for member `m` past `s`, and no
request from it to `t`, in flight or answered, holds `m`'s value of `k` at or below `s`. -/
def Unsent (addr t m k : String) (s : Int) (net : GossipNetwork α) : Prop :=
  s ≤ (net.nodes addr).watermark (watermarkKey t m) ∧
    ∀ r ∈ net.requests ++ net.answered, r.sender = addr → r.memberId = t →
      ∀ v, r.state.get? m k = some v → s < v.sequenceNumber

/-- **A value behind the watermark stays unsent.** Nothing a node does lowers the watermark, and
every request sent later holds only values above it. -/
theorem Unsent.stable (pack : ClusterTopology → α) (addr t m k : String) (s : Int) :
    Stable (GossipStep pack) (Unsent addr t m k s) := by
  intro net net' hstep ⟨hs, hreqs⟩
  refine ⟨hs.trans (hstep.watermark_le addr _), ?_⟩
  -- the requests after the step are old ones, or new ones from `SendState`
  cases hstep with
  | setState => exact hreqs
  | updateClusterTopology => exact hreqs
  | sendState a shuffled _ =>
    intro r hr hsender htarget v hv
    simp only [GossipNetwork.sendState, GossipNetwork.setNode, List.mem_append] at hr
    rcases hr with (hr | hr) | hr
    · exact hreqs r (List.mem_append_left _ hr) hsender htarget v hv
    · obtain ⟨hra, hnew⟩ := onSendGossipState_newer hr
      rw [hsender] at hra
      subst hra htarget
      exact hs.trans_lt (hnew m k v hv)
    · exact hreqs r (List.mem_append_right _ hr) hsender htarget v hv
  | deliver i r' known hi =>
    intro r hr
    simp only [GossipNetwork.deliver, GossipNetwork.setNode, List.mem_append,
      List.mem_singleton] at hr
    rcases hr with hr | hr | rfl
    · exact hreqs r (List.mem_append_left _ (List.mem_of_mem_eraseIdx hr))
    · exact hreqs r (List.mem_append_right _ hr)
    · exact hreqs r (List.mem_append_left _ (List.mem_of_getElem? hi))
  | dropRequest i =>
    intro r hr
    rcases List.mem_append.mp hr with hr | hr
    · exact hreqs r (List.mem_append_left _ (List.mem_of_mem_eraseIdx hr))
    · exact hreqs r (List.mem_append_right _ hr)
  | respond => exact hreqs
  | dropResponse => exact hreqs

/-! ### A run that loses a value -/

/-- Member `"n"`, at address `"n:1"`. -/
def nodeN : Member :=
  ⟨"n", 1, "n", []⟩

/-- Member `"t"`, at address `"t:1"`. -/
def nodeT : Member :=
  ⟨"t", 1, "t", []⟩

/-- The packing of topologies in the run: gossip values are strings. -/
def packTopology (_ : ClusterTopology) : String :=
  "topology"

/-- Two fresh informers, `"n"` at `"n:1"` and `"t"` elsewhere. -/
def pairNetwork : GossipNetwork String :=
  ⟨fun addr => newInformer (if addr = nodeN.address then nodeN.id else nodeT.id) 3 3, [], [], []⟩

/-- The topology of the two members. -/
def pairTopology : ClusterTopology :=
  ⟨0, [nodeN, nodeT], [], []⟩

/-- `"n"` learns the topology, sets `"k"` to `"v"` and sends its state to `"t"`; the request is
lost. -/
def lostRequestNetwork : GossipNetwork String :=
  let net := ((pairNetwork.updateClusterTopology packTopology nodeN.address pairTopology).setState
    nodeN.address "k" "v").sendState nodeN.address [nodeT]
  { net with requests := net.requests.eraseIdx 0 }

theorem lost_gossip_request_skips_entry :
    Relation.ReflTransGen (GossipStep packTopology) pairNetwork lostRequestNetwork ∧
      (lostRequestNetwork.nodes nodeN.address).state.get? "n" "k" = some ⟨2, "v"⟩ ∧
      (lostRequestNetwork.nodes nodeN.address).watermark (watermarkKey "t" "n") = 2 ∧
      ∀ net, Relation.ReflTransGen (GossipStep packTopology) lostRequestNetwork net →
        ∀ r ∈ net.requests ++ net.answered, r.sender = nodeN.address → r.memberId = "t" →
          ∀ v, r.state.get? "n" "k" = some v → 2 < v.sequenceNumber := by
  refine ⟨?_, by decide, by decide, fun net hrun => ?_⟩
  · -- the four steps of the run
    refine .tail (.tail (.tail (.single (GossipStep.updateClusterTopology _ _ _)) (.setState _ _ _ _))
      (.sendState _ _ _ (by decide))) (.dropRequest _ 0)
  · have hlost : Unsent nodeN.address "t" "n" "k" 2 lostRequestNetwork := by
      refine ⟨by decide, ?_⟩
      decide
    exact ((Unsent.stable packTopology _ _ _ _ _).reflTransGen hrun hlost).2

end ProtoActor.Cluster
