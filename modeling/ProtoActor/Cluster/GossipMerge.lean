import Mathlib.Order.WithBot
import ProtoActor.Cluster.GossipState

/-!
# `mergeState` joins by sequence number

`cluster/gossip_state_management.go`.  `mergeState` walks the remote members: a member with no
local state is taken whole, and otherwise each remote value is taken when its key is new to the
member or its sequence number is higher than the local one.  Read key by key this is one rule,
`newer`: the merged state holds at each member's key the remote value when the merge `takes` it
(no local value, or a lower local sequence number), and the local value otherwise, ties included.

* `get?_mergeState`: at every member's key the merged state holds `newer` of the local and the
  remote value there.
* `updates_mergeState`: the updates are `remoteUpdates`, the remote values the merge takes, member
  by member and key by key in the order of the remote state; `mem_remoteUpdates` and
  `nodup_remoteUpdates` read membership and distinctness off it, and
  `mem_updatedKeys_mergeState` says the updated keys are the keys of the updates.
* `remoteUpdates_mergeState_self`: merging the merged state with the same remote state again
  takes nothing.
* `sequenceNumberOf_mergeState`: on sequence numbers the merge is `max`, with `⊥` for no value,
  so it is commutative and associative there.
-/

namespace ProtoActor.Cluster

open ProtoActor.Transition

variable {α : Type}

/-! ### The rule for one key -/

/-- Whether the merge takes the remote value `e` of a key whose local value is `old`: when there is
none, or when its sequence number is lower. -/
def takes (old : Option (GossipKeyValue α)) (e : GossipKeyValue α) : Bool :=
  match old with
  | none => true
  | some a => decide (a.sequenceNumber < e.sequenceNumber)

/-- The value a merge keeps for a key: the remote one if it takes it, else the local one. -/
def newer (old new : Option (GossipKeyValue α)) : Option (GossipKeyValue α) :=
  match new with
  | none => old
  | some e => if takes old e then some e else old

/-- The update that reports the remote value `e` of a member's key. -/
def GossipUpdate.ofValue (memberID key : String) (e : GossipKeyValue α) : GossipUpdate α :=
  ⟨memberID, key, e.value, e.sequenceNumber⟩

/-- The updates for the remote values `es` of one member whose local values are `old`. -/
def takenValues (memberID : String) (old : String → Option (GossipKeyValue α))
    (es : List (Σ _ : String, GossipKeyValue α)) : List (GossipUpdate α) :=
  es.filterMap fun e => if takes (old e.1) e.2 then some (.ofValue memberID e.1 e.2) else none

/-- The updates of a merge of `remoteState` into `localState`, in the order of the remote state. -/
def remoteUpdates (localState remoteState : GossipState α) : List (GossipUpdate α) :=
  remoteState.members.entries.flatMap fun ms =>
    takenValues ms.1 (localState.get? ms.1) ms.2.values.entries

/-- The sequence number of a value, `⊥` for none. -/
def sequenceNumberOrBot (v : Option (GossipKeyValue α)) : WithBot ℤ :=
  v.map (·.sequenceNumber)

/-- The sequence number a state holds for a member's key, `⊥` when it holds no value. -/
def GossipState.sequenceNumberOf (s : GossipState α) (memberID key : String) : WithBot ℤ :=
  sequenceNumberOrBot (s.get? memberID key)

@[simp] theorem newer_none (old : Option (GossipKeyValue α)) : newer old none = old := rfl

@[simp] theorem none_newer (new : Option (GossipKeyValue α)) : newer none new = new := by
  cases new <;> rfl

theorem newer_of_takes {old : Option (GossipKeyValue α)} {e : GossipKeyValue α}
    (h : takes old e = true) : newer old (some e) = some e := by
  simp [newer, h]

theorem newer_of_not_takes {old : Option (GossipKeyValue α)} {e : GossipKeyValue α}
    (h : takes old e = false) : newer old (some e) = old := by
  simp [newer, h]

/-- A value is never taken over itself. -/
theorem takes_self (e : GossipKeyValue α) : takes (some e) e = false := by
  simp [takes]

/-- Once a remote value has been merged, the merge does not take it again. -/
theorem takes_newer (old : Option (GossipKeyValue α)) (e : GossipKeyValue α) :
    takes (newer old (some e)) e = false := by
  cases h : takes old e
  · rw [newer_of_not_takes h, h]
  · rw [newer_of_takes h, takes_self]

/-- On sequence numbers `newer` is `max`: the remote value wins when its number is higher, and
on a tie the two numbers agree. -/
theorem sequenceNumberOrBot_newer (old new : Option (GossipKeyValue α)) :
    sequenceNumberOrBot (newer old new) = max (sequenceNumberOrBot old) (sequenceNumberOrBot new) := by
  cases new with
  | none => exact (max_eq_left bot_le).symm
  | some e =>
    cases old with
    | none => exact (max_eq_right bot_le).symm
    | some a =>
      by_cases hlt : a.sequenceNumber < e.sequenceNumber
      · have ht : takes (some a) e = true := by simp [takes, hlt]
        rw [newer_of_takes ht]
        exact (max_eq_right (WithBot.coe_le_coe.mpr (Int.le_of_lt hlt))).symm
      · have ht : takes (some a) e = false := by simp [takes, hlt]
        rw [newer_of_not_takes ht]
        exact (max_eq_left (WithBot.coe_le_coe.mpr (Int.not_lt.mp hlt))).symm

/-! ### One remote value -/

theorem mergeValue_of_takes (memberID : String) (acc : GossipMemberState α × Merge α)
    (remote : Σ _ : String, GossipKeyValue α) (h : takes (acc.1.values.lookup remote.1) remote.2) :
    mergeValue memberID acc remote =
      (⟨acc.1.values.insert remote.1 remote.2⟩, acc.2.report memberID remote.1 remote.2) := by
  unfold mergeValue
  cases hl : acc.1.values.lookup remote.1 with
  | none => rfl
  | some newValue =>
    rw [hl] at h
    have hlt : newValue.sequenceNumber < remote.2.sequenceNumber := by simpa [takes] using h
    simp only [if_neg (Int.not_le.mpr hlt)]

theorem mergeValue_of_not_takes (memberID : String) (acc : GossipMemberState α × Merge α)
    (remote : Σ _ : String, GossipKeyValue α)
    (h : takes (acc.1.values.lookup remote.1) remote.2 = false) :
    mergeValue memberID acc remote = acc := by
  unfold mergeValue
  cases hl : acc.1.values.lookup remote.1 with
  | none => rw [hl] at h; cases h
  | some newValue =>
    rw [hl] at h
    have hle : remote.2.sequenceNumber ≤ newValue.sequenceNumber := by simpa [takes] using h
    simp only [if_pos hle]

/-- A remote value changes only its own key of the member's state. -/
theorem lookup_mergeValue_of_ne (memberID : String) (acc : GossipMemberState α × Merge α)
    (remote : Σ _ : String, GossipKeyValue α) {key : String} (hk : key ≠ remote.1) :
    (mergeValue memberID acc remote).1.values.lookup key = acc.1.values.lookup key := by
  rcases mergeValue_eq memberID acc remote with heq | ⟨-, heq⟩
  · rw [heq]
  · rw [heq]
    exact AList.lookup_insert_ne hk

@[simp] theorem takenValues_nil (memberID : String) (old : String → Option (GossipKeyValue α)) :
    takenValues memberID old [] = [] := rfl

theorem takenValues_cons (memberID : String) (old : String → Option (GossipKeyValue α))
    (e : Σ _ : String, GossipKeyValue α) (es : List (Σ _ : String, GossipKeyValue α)) :
    takenValues memberID old (e :: es) =
      (if takes (old e.1) e.2 then [GossipUpdate.ofValue memberID e.1 e.2] else []) ++
        takenValues memberID old es := by
  unfold takenValues
  rw [List.filterMap_cons]
  split_ifs <;> rfl

/-- The updates depend on the local values of the remote keys only. -/
theorem takenValues_congr (memberID : String) (old old' : String → Option (GossipKeyValue α))
    {es : List (Σ _ : String, GossipKeyValue α)} (h : ∀ e ∈ es, old e.1 = old' e.1) :
    takenValues memberID old es = takenValues memberID old' es :=
  List.filterMap_congr fun e he => by rw [h e he]

/-- With no local values, every remote value is taken. -/
theorem takenValues_of_none (memberID : String) {old : String → Option (GossipKeyValue α)}
    (h : ∀ key, old key = none) (es : List (Σ _ : String, GossipKeyValue α)) :
    takenValues memberID old es = es.map fun e => .ofValue memberID e.1 e.2 := by
  simp [takenValues, h, takes]

/-! ### The loop over one member's values -/

/-- **The value loop, key by key.** Over remote values with distinct keys, each key ends with
`newer` of the value it had and the remote one. -/
theorem lookup_runFrom_mergeValue (memberID : String) :
    ∀ (es : List (Σ _ : String, GossipKeyValue α)) (acc : GossipMemberState α × Merge α),
      es.NodupKeys → ∀ key, (runFrom (mergeValue memberID) acc es).1.values.lookup key =
        newer (acc.1.values.lookup key) (es.dlookup key)
  | [], _, _, _ => rfl
  | ⟨k, v⟩ :: es, acc, hnd, key => by
    rw [List.nodupKeys_cons] at hnd
    rw [runFrom_cons, lookup_runFrom_mergeValue memberID es _ hnd.2 key]
    by_cases hk : key = k
    · -- the key of this value: the rest of the loop does not touch it
      subst hk
      have hnone : es.dlookup key = none := List.dlookup_eq_none.mpr hnd.1
      rw [hnone, newer_none, List.dlookup_cons_eq]
      cases ht : takes (acc.1.values.lookup key) v
      · rw [mergeValue_of_not_takes memberID acc ⟨key, v⟩ ht, newer_of_not_takes ht]
      · rw [mergeValue_of_takes memberID acc ⟨key, v⟩ ht, AList.lookup_insert,
          newer_of_takes ht]
    · rw [List.dlookup_cons_ne _ _ hk, lookup_mergeValue_of_ne memberID acc ⟨k, v⟩ hk]

/-- **The value loop's updates**: the remote values it takes, in order. -/
theorem updates_runFrom_mergeValue (memberID : String) :
    ∀ (es : List (Σ _ : String, GossipKeyValue α)) (acc : GossipMemberState α × Merge α),
      es.NodupKeys → (runFrom (mergeValue memberID) acc es).2.updates =
        acc.2.updates ++ takenValues memberID (acc.1.values.lookup ·) es
  | [], _, _ => by simp
  | e :: es, acc, hnd => by
    rw [List.nodupKeys_cons] at hnd
    -- the later keys differ from this one, so this value leaves their local values alone
    have hframe : ∀ e' ∈ es, (mergeValue memberID acc e).1.values.lookup e'.1 =
        acc.1.values.lookup e'.1 := fun e' he' =>
      lookup_mergeValue_of_ne memberID acc e fun heq => hnd.1 (heq ▸ List.mem_keys_of_mem he')
    rw [runFrom_cons, updates_runFrom_mergeValue memberID es _ hnd.2,
      takenValues_congr memberID (fun k => (mergeValue memberID acc e).1.values.lookup k)
        (fun k => acc.1.values.lookup k) hframe, takenValues_cons]
    cases ht : takes (acc.1.values.lookup e.1) e.2
    · rw [mergeValue_of_not_takes memberID acc e ht]
      simp
    · rw [mergeValue_of_takes memberID acc e ht]
      simp [Merge.report, GossipUpdate.ofValue]

/-! ### The loop over the remote members -/

theorem updates_runFrom_report (memberID : String) :
    ∀ (m : Merge α) (es : List (Σ _ : String, GossipKeyValue α)),
      (runFrom (fun m (e : Σ _ : String, GossipKeyValue α) => m.report memberID e.1 e.2) m
        es).updates = m.updates ++ es.map fun e => .ofValue memberID e.1 e.2
  | _, [] => by simp
  | m, e :: es => by
    rw [runFrom_cons, updates_runFrom_report memberID _ es]
    simp [Merge.report, GossipUpdate.ofValue]

/-- A member's values in a state, as a function of the key. -/
theorem get?_of_lookup {s : GossipState α} {memberID : String} {ms : GossipMemberState α}
    (h : s.members.lookup memberID = some ms) : s.get? memberID = (ms.values.lookup ·) := by
  funext key
  simp [GossipState.get?, h]

theorem get?_of_lookup_none {s : GossipState α} {memberID : String}
    (h : s.members.lookup memberID = none) (key : String) : s.get? memberID key = none := by
  simp [GossipState.get?, h]

/-- **One remote member, key by key.** -/
theorem get?_mergeMember (m : Merge α) (remote : Σ _ : String, GossipMemberState α)
    (memberID key : String) :
    (mergeMember m remote).mergedState.get? memberID key =
      if memberID = remote.1 then newer (m.mergedState.get? memberID key) (remote.2.values.lookup key)
      else m.mergedState.get? memberID key := by
  rw [mergeMember_mergedState, GossipState.get?_insert]
  split_ifs with hm
  · subst hm
    cases hl : m.mergedState.members.lookup remote.1 with
    | none =>
      -- a member without local state: its remote state is taken whole
      rw [get?_of_lookup_none hl, none_newer]
    | some old =>
      rw [get?_of_lookup hl]
      exact lookup_runFrom_mergeValue remote.1 _ (old, m) remote.2.values.nodupKeys key
  · rfl

/-- **One remote member's updates.** -/
theorem updates_mergeMember (m : Merge α) (remote : Σ _ : String, GossipMemberState α) :
    (mergeMember m remote).updates =
      m.updates ++ takenValues remote.1 (m.mergedState.get? remote.1) remote.2.values.entries := by
  unfold mergeMember
  split
  · rename_i hl
    rw [updates_runFrom_report, takenValues_of_none remote.1 (get?_of_lookup_none hl)]
  · rename_i old hl
    rw [updates_runFrom_mergeValue remote.1 _ (old, m) remote.2.values.nodupKeys,
      get?_of_lookup hl]

theorem get?_runFrom_mergeMember :
    ∀ (es : List (Σ _ : String, GossipMemberState α)) (m : Merge α), es.NodupKeys →
      ∀ memberID key, (runFrom mergeMember m es).mergedState.get? memberID key =
        newer (m.mergedState.get? memberID key)
          ((es.dlookup memberID).bind fun ms => ms.values.lookup key)
  | [], _, _, _, _ => rfl
  | ⟨k, ms⟩ :: es, m, hnd, memberID, key => by
    rw [List.nodupKeys_cons] at hnd
    rw [runFrom_cons, get?_runFrom_mergeMember es _ hnd.2, get?_mergeMember]
    by_cases hm : memberID = k
    · -- the member of this entry: the rest of the loop does not touch it
      subst hm
      have hnone : es.dlookup memberID = none := List.dlookup_eq_none.mpr hnd.1
      rw [hnone, if_pos rfl, List.dlookup_cons_eq]
      rfl
    · rw [if_neg hm, List.dlookup_cons_ne _ _ hm]

theorem updates_runFrom_mergeMember :
    ∀ (es : List (Σ _ : String, GossipMemberState α)) (m : Merge α), es.NodupKeys →
      (runFrom mergeMember m es).updates = m.updates ++
        es.flatMap fun ms => takenValues ms.1 (m.mergedState.get? ms.1) ms.2.values.entries
  | [], _, _ => by simp
  | e :: es, m, hnd => by
    rw [List.nodupKeys_cons] at hnd
    -- the later members differ from this one, so its merge leaves their local values alone
    have hframe : ∀ ms ∈ es, (mergeMember m e).mergedState.get? ms.1 = m.mergedState.get? ms.1 := by
      intro ms hms
      funext key
      rw [get?_mergeMember, if_neg fun heq : ms.1 = e.1 => hnd.1 (heq ▸ List.mem_keys_of_mem hms)]
    have hrest : (es.flatMap fun ms => takenValues ms.1 ((mergeMember m e).mergedState.get? ms.1)
        ms.2.values.entries) =
        es.flatMap fun ms => takenValues ms.1 (m.mergedState.get? ms.1) ms.2.values.entries :=
      List.flatMap_congr fun ms hms => by rw [hframe ms hms]
    rw [runFrom_cons, updates_runFrom_mergeMember es _ hnd.2, hrest, updates_mergeMember,
      List.flatMap_cons, List.append_assoc]

/-! ### The merge -/

/-- **The merged state, key by key.** -/
theorem get?_mergeState (localState remoteState : GossipState α) (memberID key : String) :
    (mergeState localState remoteState).mergedState.get? memberID key =
      newer (localState.get? memberID key) (remoteState.get? memberID key) :=
  get?_runFrom_mergeMember _ _ remoteState.members.nodupKeys memberID key

/-- **The updates**: exactly the remote values the merge takes. -/
theorem updates_mergeState (localState remoteState : GossipState α) :
    (mergeState localState remoteState).updates = remoteUpdates localState remoteState := by
  rw [mergeState, updates_runFrom_mergeMember _ _ remoteState.members.nodupKeys, List.nil_append]
  rfl

theorem mem_remoteUpdates {localState remoteState : GossipState α} {u : GossipUpdate α} :
    u ∈ remoteUpdates localState remoteState ↔
      ∃ e, remoteState.get? u.memberID u.key = some e ∧
        takes (localState.get? u.memberID u.key) e = true ∧
        u = .ofValue u.memberID u.key e := by
  simp only [remoteUpdates, takenValues, List.mem_flatMap, List.mem_filterMap,
    Option.ite_none_right_eq_some, Option.some.injEq]
  constructor
  · rintro ⟨ms, hms, e, he, ht, rfl⟩
    have hlookup : remoteState.get? ms.1 e.1 = some e.2 :=
      GossipState.get?_eq_some.mpr ⟨ms.2, AList.mem_lookup_iff.mpr hms, AList.mem_lookup_iff.mpr he⟩
    exact ⟨e.2, hlookup, ht, rfl⟩
  · rintro ⟨e, hget, ht, hu⟩
    obtain ⟨ms, hms, he⟩ := GossipState.get?_eq_some.mp hget
    exact ⟨⟨u.memberID, ms⟩, AList.mem_lookup_iff.mp hms, ⟨u.key, e⟩,
      AList.mem_lookup_iff.mp he, ht, hu.symm⟩

/-- The member's id and the key of each of one member's updates. -/
theorem map_takenValues_sublist (memberID : String) (old : String → Option (GossipKeyValue α))
    (es : List (Σ _ : String, GossipKeyValue α)) :
    ((takenValues memberID old es).map fun u => (u.memberID, u.key)).Sublist
      (es.map fun e => (memberID, e.1)) := by
  induction es with
  | nil => simp
  | cons e es ih =>
    rw [takenValues_cons, List.map_append, List.map_cons]
    split_ifs
    · exact ih.cons_cons _
    · exact ih.cons _

/-- No member's key is reported twice. -/
theorem nodup_remoteUpdates (localState remoteState : GossipState α) :
    ((remoteUpdates localState remoteState).map fun u => (u.memberID, u.key)).Nodup := by
  rw [remoteUpdates, List.map_flatMap, List.nodup_flatMap]
  constructor
  · -- within a member the keys are distinct
    intro ms _
    have hkeys : (ms.2.values.entries.map fun e => (ms.1, e.1)) =
        ms.2.values.entries.keys.map (Prod.mk ms.1) := by
      simp [List.keys]
    have hnodup : (ms.2.values.entries.map fun e => (ms.1, e.1)).Nodup := by
      rw [hkeys]
      exact ms.2.values.nodupKeys.map (Prod.mk_right_injective ms.1)
    exact hnodup.sublist (map_takenValues_sublist _ _ _)
  · -- the updates of two members differ in the member's id
    have hpair : remoteState.members.entries.Pairwise fun a b => a.1 ≠ b.1 :=
      List.pairwise_map.mp remoteState.members.nodupKeys
    refine hpair.imp fun {a b} hab => ?_
    rw [Function.onFun_apply, List.disjoint_left]
    intro x hxa hxb
    have ha := (map_takenValues_sublist a.1 (localState.get? a.1) a.2.values.entries).subset hxa
    have hb := (map_takenValues_sublist b.1 (localState.get? b.1) b.2.values.entries).subset hxb
    obtain ⟨ea, -, rfl⟩ := List.mem_map.mp ha
    obtain ⟨eb, -, heb⟩ := List.mem_map.mp hb
    exact hab (Prod.mk.inj heb).1.symm

/-! ### The updated keys -/

/-- The updated keys are the keys of the updates. -/
def Merge.KeysTracked (m : Merge α) : Prop :=
  ∀ key, key ∈ m.updatedKeys ↔ ∃ u ∈ m.updates, u.key = key

theorem Merge.KeysTracked.report {m : Merge α} (h : m.KeysTracked) (memberID key : String)
    (v : GossipKeyValue α) : (m.report memberID key v).KeysTracked := by
  intro k
  simp only [Merge.report, List.mem_insert_iff, List.mem_append, List.mem_singleton]
  rw [h k]
  constructor
  · rintro (rfl | ⟨u, hu, rfl⟩)
    · exact ⟨_, .inr rfl, rfl⟩
    · exact ⟨u, .inl hu, rfl⟩
  · rintro ⟨u, hu | rfl, rfl⟩
    · exact .inr ⟨u, hu, rfl⟩
    · exact .inl rfl

theorem Merge.KeysTracked.mergeMember {m : Merge α} (h : m.KeysTracked)
    (remote : Σ _ : String, GossipMemberState α) : (Cluster.mergeMember m remote).KeysTracked := by
  unfold Cluster.mergeMember
  split
  · exact runFrom_induction (P := Merge.KeysTracked) (fun m e hm => hm.report _ e.1 e.2) h _
  · refine runFrom_induction (P := fun acc : GossipMemberState α × Merge α => acc.2.KeysTracked)
      (fun acc e hacc => ?_) h _
    rcases mergeValue_eq remote.1 acc e with heq | ⟨-, heq⟩
    · rw [heq]; exact hacc
    · rw [heq]; exact hacc.report _ e.1 e.2

theorem mem_updatedKeys_mergeState (localState remoteState : GossipState α) (key : String) :
    key ∈ (mergeState localState remoteState).updatedKeys ↔
      ∃ u ∈ (mergeState localState remoteState).updates, u.key = key := by
  have hinit : (⟨[], localState, []⟩ : Merge α).KeysTracked := by
    intro k
    simp
  exact runFrom_induction (P := Merge.KeysTracked) (fun m remote hm => hm.mergeMember remote)
    hinit _ key

/-! ### The laws of the join -/

/-- **Idempotence.** Merging the merged state with the same remote state takes nothing. -/
theorem remoteUpdates_mergeState_self (localState remoteState : GossipState α) :
    remoteUpdates (mergeState localState remoteState).mergedState remoteState = [] := by
  rw [List.eq_nil_iff_forall_not_mem]
  intro u hu
  obtain ⟨e, hget, ht, -⟩ := mem_remoteUpdates.mp hu
  rw [get?_mergeState, hget, takes_newer] at ht
  cases ht

/-- **On sequence numbers the merge is `max`.** -/
theorem sequenceNumberOf_mergeState (localState remoteState : GossipState α) (memberID key : String) :
    (mergeState localState remoteState).mergedState.sequenceNumberOf memberID key =
      max (localState.sequenceNumberOf memberID key) (remoteState.sequenceNumberOf memberID key) := by
  rw [GossipState.sequenceNumberOf, get?_mergeState, sequenceNumberOrBot_newer]
  rfl

/-- The merge, for every local and remote state: key by key the `newer` value, its updates
exactly the remote values it takes, each member's key once, its updated keys their keys, nothing
taken when the same remote state is merged again, and on sequence numbers commutative and
associative. -/
theorem mergeState_max_join (localState remoteState : GossipState α) :
    (∀ memberID key, (mergeState localState remoteState).mergedState.get? memberID key =
      newer (localState.get? memberID key) (remoteState.get? memberID key)) ∧
    (∀ u, u ∈ (mergeState localState remoteState).updates ↔
      ∃ e, remoteState.get? u.memberID u.key = some e ∧
        takes (localState.get? u.memberID u.key) e = true ∧ u = .ofValue u.memberID u.key e) ∧
    ((mergeState localState remoteState).updates.map fun u => (u.memberID, u.key)).Nodup ∧
    (∀ key, key ∈ (mergeState localState remoteState).updatedKeys ↔
      ∃ u ∈ (mergeState localState remoteState).updates, u.key = key) ∧
    (mergeState (mergeState localState remoteState).mergedState remoteState).updates = [] ∧
    (∀ memberID key, (mergeState localState remoteState).mergedState.sequenceNumberOf memberID key =
      (mergeState remoteState localState).mergedState.sequenceNumberOf memberID key) ∧
    (∀ (thirdState : GossipState α) memberID key,
      (mergeState (mergeState localState remoteState).mergedState thirdState).mergedState.sequenceNumberOf
          memberID key =
        (mergeState localState (mergeState remoteState thirdState).mergedState).mergedState.sequenceNumberOf
          memberID key) := by
  refine ⟨get?_mergeState localState remoteState, fun u => ?_, ?_,
    mem_updatedKeys_mergeState localState remoteState, ?_, fun memberID key => ?_,
    fun thirdState memberID key => ?_⟩
  · rw [updates_mergeState]
    exact mem_remoteUpdates
  · rw [updates_mergeState]
    exact nodup_remoteUpdates localState remoteState
  · rw [updates_mergeState]
    exact remoteUpdates_mergeState_self localState remoteState
  · rw [sequenceNumberOf_mergeState, sequenceNumberOf_mergeState]
    exact max_comm _ _
  · rw [sequenceNumberOf_mergeState, sequenceNumberOf_mergeState, sequenceNumberOf_mergeState,
      sequenceNumberOf_mergeState]
    exact max_assoc _ _ _

end ProtoActor.Cluster
