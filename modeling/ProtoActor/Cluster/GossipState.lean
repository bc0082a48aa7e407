import Mathlib.Data.List.AList
import ProtoActor.Transition.Run

/-!
# Gossip state

`cluster/gossip_state_management.go`.  The state an informer gossips holds, for each member id,
the values that member set, by key, each with the sequence number its owner gave it.  `setKey`
gives a value the next sequence number of its owner; `mergeState` merges a remote state into the
local one, taking a remote value when its key is new or its sequence number is higher, and
reports each value it takes as a `GossipUpdate`.

Go maps are `AList`s keyed by strings, and a `range` over a map visits the entries in the order
of `entries`: Go leaves that order open, and the model's results hold for every state, so for
every order.  Messages are values of a type `α`, already packed as `anypb.Any`.  The local
timestamps that `setKey` and `mergeState` write are read by nothing modelled and are left out.
-/

namespace ProtoActor.Cluster

open ProtoActor.Transition

variable {α : Type}

/-- `GossipKeyValue`: a value with the sequence number its owner gave it. -/
structure GossipKeyValue (α : Type) where
  sequenceNumber : Int
  value : α
  deriving DecidableEq

/-- `GossipState_GossipMemberState`: one member's values, by key. -/
structure GossipMemberState (α : Type) where
  values : AList (fun _ : String => GossipKeyValue α)
  deriving DecidableEq

/-- `GossipState`: the member states, by member id. -/
structure GossipState (α : Type) where
  members : AList (fun _ : String => GossipMemberState α)
  deriving DecidableEq

/-- `GossipUpdate`: a value taken from a remote state. -/
structure GossipUpdate (α : Type) where
  memberID : String
  key : String
  value : α
  seqNumber : Int
  deriving DecidableEq

/-- The value a state holds for a member's key. -/
def GossipState.get? (state : GossipState α) (memberID key : String) : Option (GossipKeyValue α) :=
  (state.members.lookup memberID).bind fun ms => ms.values.lookup key

@[simp] theorem GossipState.get?_empty (memberID key : String) :
    (⟨∅⟩ : GossipState α).get? memberID key = none := by
  simp [GossipState.get?, AList.lookup_empty]

theorem GossipState.get?_insert (state : GossipState α) (id : String) (ms : GossipMemberState α)
    (memberID key : String) :
    (⟨state.members.insert id ms⟩ : GossipState α).get? memberID key =
      if memberID = id then ms.values.lookup key else state.get? memberID key := by
  by_cases h : memberID = id
  · subst h; simp [GossipState.get?, AList.lookup_insert]
  · simp [GossipState.get?, AList.lookup_insert_ne h, h]

/-- `ensureMemberStateExists`: the member's state, created empty if it has none. -/
def ensureMemberStateExists (state : GossipState α) (memberID : String) :
    GossipMemberState α × GossipState α :=
  match state.members.lookup memberID with
  | some memberState => (memberState, state)
  | none => (⟨∅⟩, ⟨state.members.insert memberID ⟨∅⟩⟩)

/-- `setKey`: the entry of `key` in the member's state (made by `ensureEntryExists` if missing)
gets the next sequence number and the value; the new sequence number is returned. -/
def setKey (state : GossipState α) (key : String) (value : α) (memberID : String)
    (sequenceNo : Int) : GossipState α × Int :=
  let (memberState, state) := ensureMemberStateExists state memberID
  let sequenceNo := sequenceNo + 1
  (⟨state.members.insert memberID ⟨memberState.values.insert key ⟨sequenceNo, value⟩⟩⟩, sequenceNo)

/-! ### Merging a remote state -/

/-- The three results of `mergeState`; `updatedKeys` is a set. -/
structure Merge (α : Type) where
  updates : List (GossipUpdate α)
  mergedState : GossipState α
  updatedKeys : List String

/-- Report the remote value of a member's key as taken. -/
def Merge.report (m : Merge α) (memberID key : String) (v : GossipKeyValue α) : Merge α :=
  { m with
    updates := m.updates ++ [⟨memberID, key, v.value, v.sequenceNumber⟩]
    updatedKeys := m.updatedKeys.insert key }

/-- The loop over a remote member's values when the member has local state `newMemberState`. -/
def mergeValue (memberID : String) (acc : GossipMemberState α × Merge α)
    (remote : Σ _ : String, GossipKeyValue α) : GossipMemberState α × Merge α :=
  let take := (⟨acc.1.values.insert remote.1 remote.2⟩, acc.2.report memberID remote.1 remote.2)
  match acc.1.values.lookup remote.1 with
  | none => take
  | some newValue =>
    -- the remote value is older: ignore it
    if remote.2.sequenceNumber ≤ newValue.sequenceNumber then acc else take

/-- The loop of `mergeState` over the remote members. -/
def mergeMember (m : Merge α) (remote : Σ _ : String, GossipMemberState α) : Merge α :=
  match m.mergedState.members.lookup remote.1 with
  | none =>
    -- a member without local state: its remote state is taken whole
    let m := runFrom (fun m (e : Σ _ : String, GossipKeyValue α) => m.report remote.1 e.1 e.2) m
      remote.2.values.entries
    { m with mergedState := ⟨m.mergedState.members.insert remote.1 remote.2⟩ }
  | some newMemberState =>
    let acc := runFrom (mergeValue remote.1) (newMemberState, m) remote.2.values.entries
    { acc.2 with mergedState := ⟨acc.2.mergedState.members.insert remote.1 acc.1⟩ }

/-- `mergeState`: the local state merged with the remote one. -/
def mergeState (localState remoteState : GossipState α) : Merge α :=
  runFrom mergeMember ⟨[], localState, []⟩ remoteState.members.entries

/-! ### What a state holds

`All P s` says that every value `s` holds satisfies `P`; `Kept s t` that `t` still holds a value
for every member's key that `s` holds, with a sequence number at least as high.  Both read a
state only through its lookups, so a member state added empty changes neither. -/

/-- Every value the member state holds satisfies `P`, of its key. -/
def GossipMemberState.All (P : String → GossipKeyValue α → Prop) (ms : GossipMemberState α) :
    Prop :=
  ∀ k e, ms.values.lookup k = some e → P k e

/-- Every value the state holds satisfies `P`, of its member and key. -/
def GossipState.All (P : String → String → GossipKeyValue α → Prop) (s : GossipState α) : Prop :=
  ∀ m k e, s.get? m k = some e → P m k e

/-- `b` holds a value for every key `a` holds, with a sequence number at least as high. -/
def GossipMemberState.Kept (a b : GossipMemberState α) : Prop :=
  a.All fun k e => ∃ e', b.values.lookup k = some e' ∧ e.sequenceNumber ≤ e'.sequenceNumber

/-- `t` holds a value for every member's key `s` holds, with a sequence number at least as
high. -/
def GossipState.Kept (s t : GossipState α) : Prop :=
  s.All fun m k e => ∃ e', t.get? m k = some e' ∧ e.sequenceNumber ≤ e'.sequenceNumber

theorem GossipState.get?_eq_some {s : GossipState α} {m k : String} {e : GossipKeyValue α} :
    s.get? m k = some e ↔ ∃ ms, s.members.lookup m = some ms ∧ ms.values.lookup k = some e :=
  Option.bind_eq_some_iff

namespace GossipMemberState

variable {P : String → GossipKeyValue α → Prop}

theorem all_empty : (⟨∅⟩ : GossipMemberState α).All P := by
  intro k e h
  simp [AList.lookup_empty] at h

theorem All.insert {ms : GossipMemberState α} (h : ms.All P) {k : String} {e : GossipKeyValue α}
    (he : P k e) : (⟨ms.values.insert k e⟩ : GossipMemberState α).All P := by
  intro k' e' h'
  by_cases hk : k' = k
  · subst hk
    rw [AList.lookup_insert, Option.some_inj] at h'
    exact h' ▸ he
  · rw [AList.lookup_insert_ne hk] at h'
    exact h k' e' h'

theorem Kept.refl (a : GossipMemberState α) : a.Kept a :=
  fun _ e h => ⟨e, h, Int.le_refl _⟩

theorem Kept.trans {a b c : GossipMemberState α} (hab : a.Kept b) (hbc : b.Kept c) : a.Kept c := by
  intro k e he
  obtain ⟨e', he', hle⟩ := hab k e he
  obtain ⟨e'', he'', hle'⟩ := hbc k e' he'
  exact ⟨e'', he'', Int.le_trans hle hle'⟩

/-- Inserting a value keeps the values if the one it replaces has no higher sequence number. -/
theorem kept_insert (ms : GossipMemberState α) (k : String) (e : GossipKeyValue α)
    (h : ∀ old, ms.values.lookup k = some old → old.sequenceNumber ≤ e.sequenceNumber) :
    ms.Kept ⟨ms.values.insert k e⟩ := by
  intro k' e' he'
  by_cases hk : k' = k
  · subst hk
    exact ⟨e, AList.lookup_insert _, h e' he'⟩
  · exact ⟨e', by rw [AList.lookup_insert_ne hk]; exact he', Int.le_refl _⟩

end GossipMemberState

namespace GossipState

variable {P Q : String → String → GossipKeyValue α → Prop}

theorem all_empty : (⟨∅⟩ : GossipState α).All P := by
  intro m k e h
  simp at h

theorem All.mono {s : GossipState α} (h : s.All P) (hPQ : ∀ m k e, P m k e → Q m k e) :
    s.All Q :=
  fun m k e he => hPQ m k e (h m k e he)

/-- The values of one member of a state. -/
theorem All.lookup {s : GossipState α} (h : s.All P) {m : String} {ms : GossipMemberState α}
    (hm : s.members.lookup m = some ms) : ms.All (P m) :=
  fun k e he => h m k e (get?_eq_some.mpr ⟨ms, hm, he⟩)

theorem All.insert {s : GossipState α} (h : s.All P) {m : String} {ms : GossipMemberState α}
    (hms : ms.All (P m)) : (⟨s.members.insert m ms⟩ : GossipState α).All P := by
  intro m' k e he
  rw [get?_insert] at he
  split_ifs at he with hm
  · subst hm
    exact hms k e he
  · exact h m' k e he

theorem Kept.refl (s : GossipState α) : s.Kept s :=
  fun _ _ e h => ⟨e, h, Int.le_refl _⟩

theorem Kept.trans {s t u : GossipState α} (hst : s.Kept t) (htu : t.Kept u) : s.Kept u := by
  intro m k e he
  obtain ⟨e', he', hle⟩ := hst m k e he
  obtain ⟨e'', he'', hle'⟩ := htu m k e' he'
  exact ⟨e'', he'', Int.le_trans hle hle'⟩

/-- Two states with the same lookups keep each other. -/
theorem kept_of_get?_eq {s t : GossipState α} (h : ∀ m k, t.get? m k = s.get? m k) : s.Kept t :=
  fun m k e he => ⟨e, (h m k).trans he, Int.le_refl _⟩

/-- Replacing a member state keeps the values if the new one keeps the old one's. -/
theorem kept_insert (s : GossipState α) (m : String) (ms : GossipMemberState α)
    (h : ∀ old, s.members.lookup m = some old → old.Kept ms) :
    s.Kept ⟨s.members.insert m ms⟩ := by
  intro m' k e he
  rw [get?_insert]
  split_ifs with hm
  · subst hm
    obtain ⟨old, hold, hk⟩ := get?_eq_some.mp he
    exact h old hold k e hk
  · exact ⟨e, he, Int.le_refl _⟩

end GossipState

/-- `ensureMemberStateExists` changes no lookup. -/
@[simp] theorem get?_ensureMemberStateExists (state : GossipState α) (id m k : String) :
    (ensureMemberStateExists state id).2.get? m k = state.get? m k := by
  unfold ensureMemberStateExists
  split
  · rfl
  · rename_i hnone
    rw [GossipState.get?_insert]
    split_ifs with hm
    · subst hm
      simp [GossipState.get?, hnone, AList.lookup_empty]
    · rfl

/-- `setKey` sets one value: the key of the member, with the next sequence number. -/
theorem get?_setKey (state : GossipState α) (key : String) (value : α) (memberID : String)
    (sequenceNo : Int) (m k : String) :
    (setKey state key value memberID sequenceNo).1.get? m k =
      if m = memberID ∧ k = key then some ⟨sequenceNo + 1, value⟩ else state.get? m k := by
  have hms : ∀ k', (ensureMemberStateExists state memberID).1.values.lookup k' =
      state.get? memberID k' := by
    intro k'
    unfold ensureMemberStateExists
    split <;> simp [GossipState.get?, *, AList.lookup_empty]
  simp only [setKey, GossipState.get?_insert]
  by_cases hm : m = memberID
  · subst hm
    by_cases hk : k = key
    · subst hk
      simp [AList.lookup_insert]
    · simp [AList.lookup_insert_ne hk, hms, hk]
  · simp [hm]

/-! ### Merging keeps the local values and takes only remote ones -/

/-- A value of a member state's entries is the one it holds for its key. -/
theorem GossipMemberState.All.of_mem {P : String → GossipKeyValue α → Prop}
    {ms : GossipMemberState α} (h : ms.All P) {e : Σ _ : String, GossipKeyValue α}
    (he : e ∈ ms.values.entries) : P e.1 e.2 :=
  h e.1 e.2 (AList.mem_lookup_iff.mpr he)

/-- A member of a state's entries is the one it holds for its id. -/
theorem GossipState.All.of_mem {P : String → String → GossipKeyValue α → Prop}
    {s : GossipState α} (h : s.All P) {e : Σ _ : String, GossipMemberState α}
    (he : e ∈ s.members.entries) : e.2.All (P e.1) :=
  h.lookup (AList.mem_lookup_iff.mpr he)

/-- What one turn of the value loop does: nothing, or take the remote value, whose sequence
number is above the one held for its key if any. -/
theorem mergeValue_eq (memberID : String) (acc : GossipMemberState α × Merge α)
    (remote : Σ _ : String, GossipKeyValue α) :
    mergeValue memberID acc remote = acc ∨
      ((∀ old, acc.1.values.lookup remote.1 = some old →
          old.sequenceNumber < remote.2.sequenceNumber) ∧
        mergeValue memberID acc remote =
          (⟨acc.1.values.insert remote.1 remote.2⟩, acc.2.report memberID remote.1 remote.2)) := by
  unfold mergeValue
  split
  · rename_i hnone
    exact .inr ⟨fun old hold => by simp [hnone] at hold, rfl⟩
  · rename_i newValue hsome
    by_cases hle : remote.2.sequenceNumber ≤ newValue.sequenceNumber
    · exact .inl (if_pos hle)
    · refine .inr ⟨fun old hold => ?_, if_neg hle⟩
      rw [hsome, Option.some_inj] at hold
      subst hold
      omega

/-- The value loop works on the member's state and leaves the merged state alone. -/
theorem mergedState_runFrom_mergeValue (memberID : String) (acc : GossipMemberState α × Merge α)
    (es : List (Σ _ : String, GossipKeyValue α)) :
    (runFrom (mergeValue memberID) acc es).2.mergedState = acc.2.mergedState := by
  refine runFrom_induction
    (P := fun a : GossipMemberState α × Merge α => a.2.mergedState = acc.2.mergedState) ?_ rfl es
  intro a e ha
  rcases mergeValue_eq memberID a e with heq | ⟨-, heq⟩
  · rw [heq]; exact ha
  · rw [heq]; exact ha

theorem all_runFrom_mergeValue (memberID : String) {Q : String → GossipKeyValue α → Prop}
    {es : List (Σ _ : String, GossipKeyValue α)} (hes : ∀ e ∈ es, Q e.1 e.2)
    {acc : GossipMemberState α × Merge α} (hacc : acc.1.All Q) :
    (runFrom (mergeValue memberID) acc es).1.All Q := by
  refine runFrom_induction_mem (P := fun a : GossipMemberState α × Merge α => a.1.All Q) ?_ hacc
  intro a e he ha
  rcases mergeValue_eq memberID a e with heq | ⟨-, heq⟩
  · rw [heq]; exact ha
  · rw [heq]; exact ha.insert (hes e he)

theorem kept_runFrom_mergeValue (memberID : String) (acc : GossipMemberState α × Merge α)
    (es : List (Σ _ : String, GossipKeyValue α)) :
    acc.1.Kept (runFrom (mergeValue memberID) acc es).1 := by
  refine runFrom_induction (P := fun a : GossipMemberState α × Merge α => acc.1.Kept a.1) ?_
    (GossipMemberState.Kept.refl _) es
  intro a e ha
  rcases mergeValue_eq memberID a e with heq | ⟨hlt, heq⟩
  · rw [heq]; exact ha
  · rw [heq]
    exact ha.trans (GossipMemberState.kept_insert _ _ _ fun old hold => Int.le_of_lt (hlt old hold))

/-- What one turn of the member loop does to the merged state: the remote member's state is
taken whole if the member has none, and otherwise merged value by value into the one it has. -/
theorem mergeMember_mergedState (m : Merge α) (remote : Σ _ : String, GossipMemberState α) :
    (mergeMember m remote).mergedState = ⟨m.mergedState.members.insert remote.1
      (match m.mergedState.members.lookup remote.1 with
        | none => remote.2
        | some old => (runFrom (mergeValue remote.1) (old, m) remote.2.values.entries).1)⟩ := by
  unfold mergeMember
  split
  · -- reporting the remote values leaves the merged state alone
    have hrep : ∀ es : List (Σ _ : String, GossipKeyValue α),
        (runFrom (fun m (e : Σ _ : String, GossipKeyValue α) => m.report remote.1 e.1 e.2) m
          es).mergedState = m.mergedState :=
      @runFrom_induction _ _ (fun m (e : Σ _ : String, GossipKeyValue α) => m.report remote.1 e.1 e.2)
        (fun m' => m'.mergedState = m.mergedState) (fun _ _ h => h) m rfl
    simp only [hrep]
  · simp only [mergedState_runFrom_mergeValue]

theorem GossipState.All.mergeMember {Q : String → String → GossipKeyValue α → Prop} {m : Merge α}
    (hm : m.mergedState.All Q) {remote : Σ _ : String, GossipMemberState α}
    (hr : remote.2.All (Q remote.1)) : (Cluster.mergeMember m remote).mergedState.All Q := by
  rw [mergeMember_mergedState]
  refine hm.insert ?_
  split
  · exact hr
  · rename_i old hold
    exact all_runFrom_mergeValue remote.1 (fun e he => hr.of_mem he) (hm.lookup hold)

theorem kept_mergeMember (m : Merge α) (remote : Σ _ : String, GossipMemberState α) :
    m.mergedState.Kept (mergeMember m remote).mergedState := by
  rw [mergeMember_mergedState]
  refine GossipState.kept_insert _ _ _ fun old hold => ?_
  simp only [hold]
  exact kept_runFrom_mergeValue remote.1 (old, m) _

/-- Every value of the merged state satisfies what every local and every remote value does. -/
theorem mergeState_all {Q : String → String → GossipKeyValue α → Prop}
    {localState remoteState : GossipState α} (hl : localState.All Q) (hr : remoteState.All Q) :
    (mergeState localState remoteState).mergedState.All Q :=
  runFrom_induction_mem (P := fun m : Merge α => m.mergedState.All Q)
    (fun _ _ hremote hm => hm.mergeMember (hr.of_mem hremote)) hl

/-- The merged state keeps every local value, or one with a higher sequence number. -/
theorem kept_mergeState (localState remoteState : GossipState α) :
    localState.Kept (mergeState localState remoteState).mergedState :=
  runFrom_induction (P := fun m : Merge α => localState.Kept m.mergedState)
    (fun m remote h => h.trans (kept_mergeMember m remote)) (GossipState.Kept.refl _) _

end ProtoActor.Cluster
