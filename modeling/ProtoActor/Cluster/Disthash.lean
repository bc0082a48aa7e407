import ProtoActor.Cluster.Rendezvous
import ProtoActor.Actor.Pid

/-!
# Placement by distributed hash

`cluster/identitylookup/disthash`.  The `Manager` keeps a rendezvous of the members of the last
topology, and `Get` sends the activation request for a cluster identity to the placement actor of
the member that `GetByClusterIdentity` names.  The placement actor stores each activation under
the key `AsKey` of its identity.  On a topology it builds its own rendezvous of the same members
and poisons every activation whose key `GetByIdentity` does not give to its own address;
`GetByIdentity` splits the key again at its first `'/'`.

* `keyed_of_reachable`: in every reachable state of the placement actor each activation sits under
  the key of its identity.
* `onClusterTopology_eq_of_reachable`: when no kind has a `'/'`, a topology poisons exactly the
  activations that `Manager.Get`, after the same topology, sends elsewhere.
* `slash_kind_activation_poisoned`: an activation of the kind `"a/b"`, which `Manager.Get` routes
  to its member, is poisoned by that member at the next topology.
-/

namespace ProtoActor.Cluster.Disthash

open ProtoActor.Actor ProtoActor.Transition

/-- `GrainMeta`. -/
structure GrainMeta where
  id : ClusterIdentity
  pid : PID
  deriving DecidableEq, Repr

/-- `placementActor`, with its map `actors` from keys to activations as a list of entries. -/
structure PlacementActor where
  actors : List (String × GrainMeta)
  deriving DecidableEq, Repr

/-- `newPlacementActor`. -/
def PlacementActor.empty : PlacementActor := ⟨[]⟩

/-- `Manager`, with its rendezvous. -/
structure Manager where
  rdv : Rendezvous
  deriving DecidableEq, Repr

/-- `Manager.onClusterTopology`: a new rendezvous of the topology's members; the topology is then
sent to the placement actor. -/
def Manager.onClusterTopology (_pm : Manager) (members : List Member) : Manager :=
  ⟨Rendezvous.new.updateMembers members⟩

/-- The routing of `Manager.Get`: the address of the member whose placement actor receives the
activation request, `none` where `Get` returns `nil` at once.  The request and its reply are not
modelled. -/
def Manager.get (pm : Manager) (identity : ClusterIdentity) : Option String :=
  let ownerAddress := pm.rdv.getByClusterIdentity identity
  if ownerAddress = "" then none else some ownerAddress

/-- `onActivationRequest`: the pid it answers and the actor after.  A stored activation is
answered again; a kind outside `kinds` (`GetClusterKind` gives `nil`) is answered `nil`; otherwise
the actor spawns `spawned` and stores it under the key. -/
def PlacementActor.onActivationRequest (p : PlacementActor) (kinds : List String)
    (ci : ClusterIdentity) (spawned : PID) : Option PID × PlacementActor :=
  let key := ci.asKey
  match p.actors.lookup key with
  | some grainMeta => (some grainMeta.pid, p)
  | none =>
    if ci.kind ∈ kinds then (some spawned, ⟨p.actors ++ [(key, ⟨ci, spawned⟩)]⟩)
    else (none, p)

/-- `onTerminated`: the entry of the terminated pid (`pidToMeta`) is deleted; `none` where no
entry has it, since `meta.ID` then reads a nil `meta`.  Go compares the pid pointers; here the
pids are compared as values. -/
def PlacementActor.onTerminated (p : PlacementActor) (who : PID) : Option PlacementActor :=
  match p.actors.find? (·.2.pid = who) with
  | some (key, _) => some ⟨p.actors.filter (·.1 ≠ key)⟩
  | none => none

/-- The loop of `onClusterTopology`: the pids it poisons, `none` where `GetByIdentity` panics. -/
def poisonLoop (rdv : Rendezvous) (myAddress : String) :
    List (String × GrainMeta) → Option (List PID)
  | [] => some []
  | (identity, grainMeta) :: rest => do
    let ownerAddress ← rdv.getByIdentity identity
    let poisoned ← poisonLoop rdv myAddress rest
    pure (if ownerAddress = myAddress then poisoned else grainMeta.pid :: poisoned)

/-- `onClusterTopology`: the pids it poisons.  The actor keeps its entries: they go when their
`Terminated` comes. -/
def PlacementActor.onClusterTopology (p : PlacementActor) (members : List Member)
    (myAddress : String) : Option (List PID) :=
  let rdv := Rendezvous.new.updateMembers members
  poisonLoop rdv myAddress p.actors

/-- The messages of `placementActor.Receive` that change its entries, or read them. -/
inductive PlacementMsg
  | activationRequest (ci : ClusterIdentity) (spawned : PID)
  | terminated (who : PID)
  | clusterTopology (members : List Member)
  deriving DecidableEq, Repr

/-- `Receive`, for the actor's entries; `none` for a panic. -/
def PlacementActor.receive (p : PlacementActor) (kinds : List String) (myAddress : String) :
    PlacementMsg → Option PlacementActor
  | .activationRequest ci spawned => some (p.onActivationRequest kinds ci spawned).2
  | .terminated who => p.onTerminated who
  | .clusterTopology members => (p.onClusterTopology members myAddress).map fun _ => p

/-- A step of the placement actor. -/
def PlacementStep (kinds : List String) (myAddress : String) (p p' : PlacementActor) : Prop :=
  ∃ msg, p.receive kinds myAddress msg = some p'

/-! ### Every activation sits under the key of its identity -/

/-- Each entry's key is `AsKey` of its identity. -/
def PlacementActor.Keyed (p : PlacementActor) : Prop :=
  ∀ e ∈ p.actors, e.1 = e.2.id.asKey

theorem PlacementActor.Keyed.onActivationRequest {p : PlacementActor} (h : p.Keyed)
    (kinds : List String) (ci : ClusterIdentity) (spawned : PID) :
    (p.onActivationRequest kinds ci spawned).2.Keyed := by
  dsimp only [PlacementActor.onActivationRequest]
  split
  · exact h
  · split_ifs
    · -- the new entry is stored under the key of its own identity
      intro e he
      rcases List.mem_append.mp he with he | he
      · exact h e he
      · rw [List.mem_singleton.mp he]
    · exact h

theorem PlacementActor.Keyed.onTerminated {p p' : PlacementActor} (h : p.Keyed) {who : PID}
    (hstep : p.onTerminated who = some p') : p'.Keyed := by
  unfold PlacementActor.onTerminated at hstep
  split at hstep
  · cases hstep
    exact fun e he => h e (List.mem_of_mem_filter he)
  · cases hstep

/-- The step lemma: every message keeps the entries keyed. -/
theorem PlacementActor.Keyed.receive {p p' : PlacementActor} (h : p.Keyed) {kinds : List String}
    {myAddress : String} {msg : PlacementMsg} (hstep : p.receive kinds myAddress msg = some p') :
    p'.Keyed := by
  cases msg with
  | activationRequest ci spawned =>
    cases hstep
    exact h.onActivationRequest kinds ci spawned
  | terminated who => exact h.onTerminated hstep
  | clusterTopology members =>
    obtain ⟨_, _, rfl⟩ := Option.map_eq_some_iff.mp hstep
    exact h

theorem keyed_of_reachable {kinds : List String} {myAddress : String} {p : PlacementActor}
    (hp : Reachable (· = PlacementActor.empty) (PlacementStep kinds myAddress) p) : p.Keyed := by
  refine reachable_induction (P := PlacementActor.Keyed) (fun s hs => ?_)
    (fun s s' hs ⟨msg, hmsg⟩ => hs.receive hmsg) p hp
  rw [hs]
  exact fun e he => absurd he List.not_mem_nil

/-! ### The ownership test against the routing of `Get` -/

/-- For a rendezvous and an address that is not `""`, the owner `GetByClusterIdentity` names is
the address exactly when `Get` routes there. -/
theorem getByClusterIdentity_eq_iff (rdv : Rendezvous) {myAddress : String} (hmy : myAddress ≠ "")
    (ci : ClusterIdentity) :
    rdv.getByClusterIdentity ci = myAddress ↔ (Manager.mk rdv).get ci = some myAddress := by
  dsimp only [Manager.get]
  split_ifs with h0
  · -- no owner: the test fails, and `Get` returns `nil`
    rw [h0]
    constructor
    · intro h
      exact absurd h.symm hmy
    · intro h
      cases h
  · exact ⟨fun h => by rw [h], fun h => Option.some.inj h⟩

/-- The loop of `onClusterTopology` over keyed entries of kinds without `'/'`: it poisons the
activations that `Get` routes elsewhere, in the order of the entries. -/
theorem poisonLoop_eq (rdv : Rendezvous) {myAddress : String} (hmy : myAddress ≠ "") :
    ∀ actors : List (String × GrainMeta),
      (∀ e ∈ actors, e.1 = e.2.id.asKey ∧ '/' ∉ e.2.id.kind.toList) →
      poisonLoop rdv myAddress actors =
        some ((actors.filter fun e => (Manager.mk rdv).get e.2.id ≠ some myAddress).map (·.2.pid))
  | [], _ => rfl
  | (identity, g) :: rest, h => by
    have hkey : identity = g.id.asKey := (h (identity, g) List.mem_cons_self).1
    have hkind : '/' ∉ g.id.kind.toList := (h (identity, g) List.mem_cons_self).2
    have ih := poisonLoop_eq rdv hmy rest fun e he => h e (List.mem_cons_of_mem _ he)
    -- the owner of the key is the owner of the identity
    have hown : rdv.getByIdentity identity = some (rdv.getByClusterIdentity g.id) := by
      rw [hkey]
      exact rdv.getByIdentity_asKey hkind
    rw [poisonLoop, hown]
    simp only [Option.bind_eq_bind, Option.bind_some, ih, Option.pure_def]
    by_cases hkeep : rdv.getByClusterIdentity g.id = myAddress
    · -- kept by the test, and routed here by `Get`
      have hget := (getByClusterIdentity_eq_iff rdv hmy g.id).mp hkeep
      rw [if_pos hkeep, List.filter_cons_of_neg (by simp [hget])]
    · -- poisoned by the test, and routed elsewhere by `Get`
      have hget : (Manager.mk rdv).get g.id ≠ some myAddress :=
        fun h => hkeep ((getByClusterIdentity_eq_iff rdv hmy g.id).mpr h)
      rw [if_neg hkeep, List.filter_cons_of_pos (by simp [hget])]
      rfl

/-- **The ownership test is the routing of `Get`** when no kind has a `'/'`: in every reachable
state a topology poisons exactly the activations that `Manager.Get`, after the same topology,
sends to another member. -/
theorem onClusterTopology_eq_of_reachable {kinds : List String} {myAddress : String}
    {p : PlacementActor} (hp : Reachable (· = PlacementActor.empty) (PlacementStep kinds myAddress) p)
    (hkinds : ∀ e ∈ p.actors, '/' ∉ e.2.id.kind.toList) (hmy : myAddress ≠ "") (pm : Manager)
    (members : List Member) :
    p.onClusterTopology members myAddress =
      some ((p.actors.filter fun e => (pm.onClusterTopology members).get e.2.id ≠ some myAddress).map
        (·.2.pid)) := by
  have hkeyed := keyed_of_reachable hp
  exact poisonLoop_eq _ hmy p.actors fun e he => ⟨hkeyed e he, hkinds e he⟩

/-- A member of the kind `"k"`, and an activation of that kind, stored by its placement actor. -/
def plainKindMember : Member :=
  ⟨"10.0.0.1", 8000, "member-1", ["k"]⟩

def plainKindIdentity : ClusterIdentity :=
  ⟨"x", "k"⟩

def plainKindActor : PlacementActor :=
  ⟨[(plainKindIdentity.asKey, ⟨plainKindIdentity, ⟨"10.0.0.1:8000", "partition-activator/x$1", 0⟩⟩)]⟩

theorem onClusterTopology_eq_of_reachable_plainKind :
    Reachable (· = PlacementActor.empty) (PlacementStep ["k"] plainKindMember.address)
        plainKindActor ∧
      (∀ e ∈ plainKindActor.actors, '/' ∉ e.2.id.kind.toList) ∧ plainKindMember.address ≠ "" ∧
      plainKindActor.onClusterTopology [plainKindMember] plainKindMember.address =
        some ((plainKindActor.actors.filter fun e =>
          (Manager.onClusterTopology ⟨Rendezvous.new⟩ [plainKindMember]).get e.2.id ≠
            some plainKindMember.address).map (·.2.pid)) := by
  -- the activation request of the identity stores it
  have hstep : PlacementStep ["k"] plainKindMember.address PlacementActor.empty plainKindActor :=
    ⟨.activationRequest plainKindIdentity ⟨"10.0.0.1:8000", "partition-activator/x$1", 0⟩, by decide⟩
  have h₀ : Reachable (· = PlacementActor.empty) (PlacementStep ["k"] plainKindMember.address)
      PlacementActor.empty := Reachable.of_init rfl
  have hp := h₀.tail hstep
  have hkinds : ∀ e ∈ plainKindActor.actors, '/' ∉ e.2.id.kind.toList := by decide
  have hmy : plainKindMember.address ≠ "" := by decide
  exact ⟨hp, hkinds, hmy,
    onClusterTopology_eq_of_reachable hp hkinds hmy ⟨Rendezvous.new⟩ [plainKindMember]⟩

/-! ### A kind with a `'/'` -/

/-- A member of the kind `"a/b"`. -/
def slashKindMember : Member :=
  ⟨"10.0.0.1", 8000, "member-1", ["a/b"]⟩

/-- An identity of the kind `"a/b"`. -/
def slashKindIdentity : ClusterIdentity :=
  ⟨"x", "a/b"⟩

/-- The pid its activation is spawned as. -/
def slashKindPid : PID :=
  ⟨"10.0.0.1:8000", "partition-activator/x$1", 0⟩

theorem slash_kind_activation_poisoned :
    (Rendezvous.new.updateMembers [slashKindMember]).getByIdentity slashKindIdentity.asKey =
        some "" ∧
      (Rendezvous.new.updateMembers [slashKindMember]).getByClusterIdentity slashKindIdentity =
        slashKindMember.address ∧
      (Manager.onClusterTopology ⟨Rendezvous.new⟩ [slashKindMember]).get slashKindIdentity =
        some slashKindMember.address ∧
      PlacementActor.empty.receive ["a/b"] slashKindMember.address
          (.activationRequest slashKindIdentity slashKindPid) =
        some ⟨[(slashKindIdentity.asKey, ⟨slashKindIdentity, slashKindPid⟩)]⟩ ∧
      PlacementActor.onClusterTopology ⟨[(slashKindIdentity.asKey, ⟨slashKindIdentity, slashKindPid⟩)]⟩
          [slashKindMember] slashKindMember.address =
        some [slashKindPid] := by
  decide

end ProtoActor.Cluster.Disthash
