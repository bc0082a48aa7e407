import Mathlib.Data.Finset.Card
import ProtoActor.Actor.Pid
import ProtoActor.Transition.Run

/-!
# The representation of `PIDSet`

`actor/pidset.go`.  A `PIDSet` keeps its PIDs in a slice and a map from the `(Address, Id)` key
of each PID to its index in the slice.  It is `Valid` when the map is the exact inverse of the
slice: a key maps to an index exactly when the PID at that index has that key.  The keys of the
slice are then distinct (`Valid.nodup_keys`), and `Contains` reads the slice's keys
(`Valid.contains_iff`).

`Remove` moves the last PID into the freed slot and re-points its entry of the map, unless the
removed PID sat last; `Valid.remove` follows the two branches (`Valid.remove_swap`,
`Valid.remove_last`).  `Add`, `Clear` and `Clone` keep the invariant as well.

What the set is for is a set of keys: `keysAfter` follows the operations on a `Finset`, and
`Abstracts s A` says the keys with an entry in the map are `A`.  `Len` is then the number of
those keys (`Valid.len_eq_card`).  `pidSet_representation` states all of it after every
sequence of operations.
-/

namespace ProtoActor.Actor

open ProtoActor.Transition

namespace PIDSet

/-- `PIDSet.Values`. -/
def values (s : PIDSet) : List PID :=
  s.pids

/-- The lookup map is the inverse of the slice. -/
structure Valid (s : PIDSet) : Prop where
  inverse : ∀ k i, s.lookup k = some i ↔ s.pids[i]?.map key = some k

section Valid

variable {s : PIDSet}

theorem Valid.lookup_of_getElem? (h : s.Valid) {i : ℕ} {p : PID} (hp : s.pids[i]? = some p) :
    s.lookup (key p) = some i :=
  (h.inverse (key p) i).mpr (by simp [hp])

theorem Valid.getElem?_of_lookup (h : s.Valid) {k : PidKey} {i : ℕ} (hk : s.lookup k = some i) :
    ∃ p, s.pids[i]? = some p ∧ key p = k :=
  Option.map_eq_some_iff.mp ((h.inverse k i).mp hk)

/-- Two slots whose PIDs share a key are one slot. -/
theorem Valid.index_unique (h : s.Valid) {i j : ℕ} {p q : PID} (hp : s.pids[i]? = some p)
    (hq : s.pids[j]? = some q) (hpq : key p = key q) : i = j := by
  have hi := h.lookup_of_getElem? hp
  rw [hpq, h.lookup_of_getElem? hq] at hi
  exact (Option.some_inj.mp hi).symm

/-- The slots holding the key of the PID in slot `i` are slot `i` alone. -/
theorem Valid.map_key_eq_iff (h : s.Valid) {i : ℕ} {p : PID} (hp : s.pids[i]? = some p)
    (j : ℕ) : s.pids[j]?.map key = some (key p) ↔ j = i := by
  constructor
  · intro hj
    obtain ⟨q, hq, hkey⟩ := Option.map_eq_some_iff.mp hj
    exact h.index_unique hq hp hkey
  · rintro rfl
    simp [hp]

theorem Valid.nodup_keys (h : s.Valid) : (s.pids.map key).Nodup := by
  rw [List.nodup_iff_getElem?_ne_getElem?]
  intro i j hij hj heq
  rw [List.length_map] at hj
  obtain ⟨q, hq⟩ : ∃ q, s.pids[j]? = some q := ⟨_, List.getElem?_eq_getElem hj⟩
  rw [List.getElem?_map, List.getElem?_map, hq] at heq
  have hi := (h.map_key_eq_iff hq i).mp heq
  omega

theorem Valid.contains_iff (h : s.Valid) (v : PID) :
    s.contains v = true ↔ ∃ p ∈ s.values, key p = key v := by
  constructor
  · intro hc
    obtain ⟨i, hi⟩ := Option.isSome_iff_exists.mp hc
    obtain ⟨p, hp, hkey⟩ := h.getElem?_of_lookup hi
    exact ⟨p, List.mem_of_getElem? hp, hkey⟩
  · rintro ⟨p, hp, hkey⟩
    obtain ⟨i, hi⟩ := List.mem_iff_getElem?.mp hp
    have hlookup := h.lookup_of_getElem? hi
    rw [hkey] at hlookup
    simp [contains, hlookup]

/-- A key has an entry in the map exactly when some PID of the slice has it. -/
theorem Valid.isSome_lookup_iff (h : s.Valid) (k : PidKey) :
    (s.lookup k).isSome ↔ k ∈ s.pids.map key := by
  rw [List.mem_map]
  constructor
  · intro hk
    obtain ⟨i, hi⟩ := Option.isSome_iff_exists.mp hk
    obtain ⟨p, hp, hkey⟩ := h.getElem?_of_lookup hi
    exact ⟨p, List.mem_of_getElem? hp, hkey⟩
  · rintro ⟨p, hp, rfl⟩
    obtain ⟨i, hi⟩ := List.mem_iff_getElem?.mp hp
    simp [h.lookup_of_getElem? hi]

end Valid

/-- `Remove` reports whether the set contained the PID. -/
theorem remove_snd (s : PIDSet) (v : PID) : (s.remove v).2 = s.contains v := by
  unfold remove contains
  cases hi : s.indexOf v with
  | none =>
    rw [indexOf] at hi
    simp [hi]
  | some i =>
    rw [indexOf] at hi
    simp only [hi, Option.isSome_some]
    split_ifs <;> rfl

/-! ### Every operation keeps the invariant -/

theorem valid_empty : empty.Valid :=
  ⟨fun k i => by simp [empty]⟩

theorem Valid.add {s : PIDSet} (h : s.Valid) (v : PID) : (s.add v).Valid := by
  cases hc : s.contains v
  · rw [add_of_not_contains hc]
    have hnone : s.lookup (key v) = none := by simpa [contains] using hc
    refine ⟨fun k i => ?_⟩
    dsimp only
    by_cases hk : k = key v
    · -- the new key: its entry is the new last slot, and no old slot holds it
      subst hk
      rw [Function.update_self, Option.some_inj, List.getElem?_append]
      split_ifs with hlt
      · have hold : ¬ s.pids[i]?.map key = some (key v) := fun hi => by
          rw [← h.inverse, hnone] at hi
          cases hi
        simp only [hold, iff_false]
        omega
      · rw [List.getElem?_singleton]
        split_ifs with h0 <;> simp <;> omega
    · -- an old key: its entry and slot are unchanged, and the new slot holds another key
      rw [Function.update_of_ne hk, h.inverse, List.getElem?_append]
      split_ifs with hlt
      · rfl
      · rw [List.getElem?_eq_none (Nat.not_lt.mp hlt), List.getElem?_singleton]
        split_ifs <;> simp [Ne.symm hk]
  · rw [add_of_contains hc]
    exact h

/-- `Remove` of the PID in slot `i`, not the last one: the last PID moves into slot `i`. -/
theorem remove_of_lt {s : PIDSet} {v last : PID} {i : ℕ} (hi : s.indexOf v = some i)
    (hlt : i < s.pids.length - 1) (hlast : s.pids[s.pids.length - 1]? = some last) :
    (s.remove v).1 = ⟨(s.pids.set i last).dropLast,
      Function.update (Function.update s.lookup (key v) none) (key last) (some i)⟩ := by
  have hget : s.pids.getLast?.getD v = last := by
    rw [List.getLast?_eq_getElem?, hlast]
    rfl
  simp [remove, hi, hlt, hget]

/-- `Remove` of the PID in the last slot. -/
theorem remove_of_last {s : PIDSet} {v : PID} {i : ℕ} (hi : s.indexOf v = some i)
    (hlast : ¬ i < s.pids.length - 1) :
    (s.remove v).1 = ⟨s.pids.dropLast, Function.update s.lookup (key v) none⟩ := by
  simp [remove, hi, hlast]

theorem Valid.remove_swap {s : PIDSet} (h : s.Valid) {v last : PID} {i : ℕ}
    (hi : s.lookup (key v) = some i) (hlt : i < s.pids.length - 1)
    (hlast : s.pids[s.pids.length - 1]? = some last) :
    (⟨(s.pids.set i last).dropLast,
      Function.update (Function.update s.lookup (key v) none) (key last) (some i)⟩ : PIDSet).Valid := by
  obtain ⟨p, hp, hpv⟩ := h.getElem?_of_lookup hi
  -- the moved key and the removed key differ, as their slots do
  have hne : key last ≠ key v := fun heq => by
    have := h.index_unique hlast hp (heq.trans hpv.symm)
    omega
  -- the new slice: slot `i` holds the last PID, the last slot is gone
  have hslot : ∀ j, ((s.pids.set i last).dropLast)[j]? =
      if j < s.pids.length - 1 then (if j = i then some last else s.pids[j]?) else none := by
    intro j
    rw [List.getElem?_dropLast, List.getElem?_set, List.length_set]
    by_cases hj : j < s.pids.length - 1
    · by_cases hji : j = i
      · subst hji
        simp [hj, show j < s.pids.length by omega]
      · simp [hj, hji, Ne.symm hji]
    · simp [hj]
  refine ⟨fun k j => ?_⟩
  dsimp only
  rw [hslot j]
  by_cases hkl : k = key last
  · -- the moved key now names slot `i`
    subst hkl
    rw [Function.update_self, Option.some_inj]
    split_ifs with hj hji
    · simp [hji]
    · rw [h.map_key_eq_iff hlast j]
      omega
    · simp only [Option.map_none, reduceCtorEq, iff_false]
      omega
  · rw [Function.update_of_ne hkl]
    by_cases hkv : k = key v
    · -- the removed key names no slot
      subst hkv
      rw [Function.update_self]
      split_ifs with hj hji
      · simp [hne]
      · rw [← hpv, h.map_key_eq_iff hp j]
        simp [hji]
      · simp
    · -- any other key keeps its slot, which is neither slot `i` nor the last one
      rw [Function.update_of_ne hkv, h.inverse]
      split_ifs with hj hji
      · subst hji
        rw [hp]
        simp only [Option.map_some, Option.some_inj]
        constructor
        · intro hk
          exact absurd (hk.symm.trans hpv) hkv
        · intro hk
          exact absurd hk.symm hkl
      · rfl
      · simp only [Option.map_none, reduceCtorEq, iff_false]
        intro hk
        obtain ⟨q, hq, hkey⟩ := Option.map_eq_some_iff.mp hk
        have hjlen : j < s.pids.length := (List.getElem?_eq_some_iff.mp hq).1
        have hjlast : j ≠ s.pids.length - 1 := fun hjl => by
          subst hjl
          rw [hlast, Option.some_inj] at hq
          exact hkl (hq ▸ hkey.symm)
        omega

theorem Valid.remove_last {s : PIDSet} (h : s.Valid) {v : PID} {i : ℕ}
    (hi : s.lookup (key v) = some i) (hlast : ¬ i < s.pids.length - 1) :
    (⟨s.pids.dropLast, Function.update s.lookup (key v) none⟩ : PIDSet).Valid := by
  obtain ⟨p, hp, hpv⟩ := h.getElem?_of_lookup hi
  have hilen : i < s.pids.length := (List.getElem?_eq_some_iff.mp hp).1
  refine ⟨fun k j => ?_⟩
  dsimp only
  rw [List.getElem?_dropLast]
  by_cases hkv : k = key v
  · -- the removed key sat in the last slot, which is gone
    subst hkv
    rw [Function.update_self]
    simp only [reduceCtorEq, false_iff]
    split_ifs with hj
    · rw [← hpv, h.map_key_eq_iff hp j]
      omega
    · simp
  · rw [Function.update_of_ne hkv, h.inverse]
    split_ifs with hj
    · rfl
    · simp only [Option.map_none, reduceCtorEq, iff_false]
      intro hk
      obtain ⟨q, hq, hkey⟩ := Option.map_eq_some_iff.mp hk
      have hjlen : j < s.pids.length := (List.getElem?_eq_some_iff.mp hq).1
      have hji : j = i := by omega
      subst hji
      rw [hp, Option.some_inj] at hq
      exact hkv (by rw [← hkey, ← hq, hpv])

theorem Valid.remove {s : PIDSet} (h : s.Valid) (v : PID) : (s.remove v).1.Valid := by
  cases hi : s.indexOf v with
  | none =>
    rw [remove_of_indexOf_none hi]
    exact h
  | some i =>
    have hlookup : s.lookup (key v) = some i := hi
    by_cases hlt : i < s.pids.length - 1
    · obtain ⟨last, hlast⟩ : ∃ last, s.pids[s.pids.length - 1]? = some last :=
        ⟨_, List.getElem?_eq_getElem (by omega)⟩
      rw [remove_of_lt hi hlt hlast]
      exact h.remove_swap hlookup hlt hlast
    · rw [remove_of_last hi hlt]
      exact h.remove_last hlookup hlt

theorem valid_clear (s : PIDSet) : s.clear.Valid :=
  valid_empty

theorem valid_foldl_add (pids : List PID) :
    ∀ {s : PIDSet}, s.Valid → (pids.foldl add s).Valid := by
  induction pids with
  | nil => exact fun h => h
  | cons v pids ih => exact fun h => ih (h.add v)

theorem valid_clone (s : PIDSet) : s.clone.Valid :=
  valid_foldl_add s.pids valid_empty

/-! ### The set of keys -/

/-- The keys with an entry in the map are `A`. -/
def Abstracts (s : PIDSet) (A : Finset PidKey) : Prop :=
  ∀ k, (s.lookup k).isSome ↔ k ∈ A

theorem abstracts_empty : empty.Abstracts ∅ := by
  intro k
  simp [empty]

theorem Abstracts.add {s : PIDSet} {A : Finset PidKey} (hA : s.Abstracts A) (v : PID) :
    (s.add v).Abstracts (insert (key v) A) := by
  intro k
  rw [Finset.mem_insert]
  cases hc : s.contains v
  · rw [add_of_not_contains hc]
    by_cases hk : k = key v
    · subst hk
      simp
    · simp [hA k, hk]
  · rw [add_of_contains hc, hA k]
    have hv : key v ∈ A := (hA (key v)).mp hc
    constructor
    · exact .inr
    · rintro (rfl | hk)
      · exact hv
      · exact hk

theorem Abstracts.remove {s : PIDSet} (h : s.Valid) {A : Finset PidKey} (hA : s.Abstracts A)
    (v : PID) : (s.remove v).1.Abstracts (A.erase (key v)) := by
  intro k
  rw [Finset.mem_erase]
  cases hi : s.indexOf v with
  | none =>
    rw [remove_of_indexOf_none hi, hA k]
    have hv : key v ∉ A := fun hv => by
      have := (hA (key v)).mpr hv
      rw [show s.lookup (key v) = none from hi] at this
      cases this
    constructor
    · intro hk
      exact ⟨fun heq => hv (heq ▸ hk), hk⟩
    · exact And.right
  | some i =>
    have hlookup : s.lookup (key v) = some i := hi
    by_cases hlt : i < s.pids.length - 1
    · obtain ⟨last, hlast⟩ : ∃ last, s.pids[s.pids.length - 1]? = some last :=
        ⟨_, List.getElem?_eq_getElem (by omega)⟩
      obtain ⟨p, hp, hpv⟩ := h.getElem?_of_lookup hlookup
      have hne : key last ≠ key v := fun heq => by
        have := h.index_unique hlast hp (heq.trans hpv.symm)
        omega
      rw [remove_of_lt hi hlt hlast]
      dsimp only
      by_cases hkl : k = key last
      · -- the moved key keeps an entry
        subst hkl
        have hin : key last ∈ A := (hA _).mp (by simp [h.lookup_of_getElem? hlast])
        simp [hne, hin]
      · rw [Function.update_of_ne hkl]
        by_cases hkv : k = key v
        · subst hkv
          simp
        · rw [Function.update_of_ne hkv, hA k]
          simp [hkv]
    · rw [remove_of_last hi hlt]
      dsimp only
      by_cases hkv : k = key v
      · subst hkv
        simp
      · rw [Function.update_of_ne hkv, hA k]
        simp [hkv]

theorem Abstracts.foldl_add (pids : List PID) :
    ∀ {s : PIDSet} {A : Finset PidKey}, s.Abstracts A →
      (pids.foldl PIDSet.add s).Abstracts (A ∪ (pids.map key).toFinset) := by
  induction pids with
  | nil => intro s A h; simpa using h
  | cons v pids ih =>
    intro s A h
    have hkeys : A ∪ ((v :: pids).map key).toFinset = insert (key v) A ∪ (pids.map key).toFinset := by
      ext k
      simp only [Finset.mem_union, Finset.mem_insert, List.mem_toFinset, List.map_cons,
        List.mem_cons]
      tauto
    rw [List.foldl_cons, hkeys]
    exact ih (h.add v)

/-- For a valid set, the abstract keys are the keys of the slice. -/
theorem Valid.toFinset_keys {s : PIDSet} (h : s.Valid) {A : Finset PidKey} (hA : s.Abstracts A) :
    (s.pids.map key).toFinset = A := by
  ext k
  rw [List.mem_toFinset, ← h.isSome_lookup_iff, hA k]

theorem Abstracts.clone {s : PIDSet} (h : s.Valid) {A : Finset PidKey} (hA : s.Abstracts A) :
    s.clone.Abstracts A := by
  have := Abstracts.foldl_add s.pids abstracts_empty
  rwa [Finset.empty_union, h.toFinset_keys hA] at this

/-- **`Len`** is the number of abstract keys. -/
theorem Valid.len_eq_card {s : PIDSet} (h : s.Valid) {A : Finset PidKey} (hA : s.Abstracts A) :
    s.len = A.card := by
  rw [← h.toFinset_keys hA, List.toFinset_card_of_nodup h.nodup_keys, List.length_map]
  rfl

/-! ### Every sequence of operations -/

/-- An operation on a set: `Add`, `Remove`, `Clear`, or replacing the set by its `Clone`. -/
inductive PIDSetOp
  | add (v : PID)
  | remove (v : PID)
  | clear
  | clone

/-- One operation. -/
def applyOp (s : PIDSet) : PIDSetOp → PIDSet
  | .add v => s.add v
  | .remove v => (s.remove v).1
  | .clear => s.clear
  | .clone => s.clone

/-- The set after the operations, from the zero value. -/
def runOps (ops : List PIDSetOp) : PIDSet :=
  runFrom applyOp empty ops

/-- The keys added and not removed since. -/
def keysStep (A : Finset PidKey) : PIDSetOp → Finset PidKey
  | .add v => insert (key v) A
  | .remove v => A.erase (key v)
  | .clear => ∅
  | .clone => A

/-- The abstract keys after the operations. -/
def keysAfter (ops : List PIDSetOp) : Finset PidKey :=
  runFrom keysStep ∅ ops

theorem valid_abstracts_applyOp {s : PIDSet} {A : Finset PidKey} (h : s.Valid) (hA : s.Abstracts A)
    (op : PIDSetOp) : (s.applyOp op).Valid ∧ (s.applyOp op).Abstracts (keysStep A op) := by
  cases op with
  | add v => exact ⟨h.add v, hA.add v⟩
  | remove v => exact ⟨h.remove v, hA.remove h v⟩
  | clear => exact ⟨valid_clear s, abstracts_empty⟩
  | clone => exact ⟨valid_clone s, hA.clone h⟩

theorem valid_abstracts_runFrom (ops : List PIDSetOp) :
    ∀ {s : PIDSet} {A : Finset PidKey}, s.Valid → s.Abstracts A →
      (runFrom applyOp s ops).Valid ∧ (runFrom applyOp s ops).Abstracts (runFrom keysStep A ops) := by
  induction ops with
  | nil => exact fun h hA => ⟨h, hA⟩
  | cons op ops ih =>
    intro s A h hA
    obtain ⟨h', hA'⟩ := valid_abstracts_applyOp h hA op
    exact ih h' hA'

/-- After every sequence of `Add`, `Remove`, `Clear` and `Clone`: the map is the inverse of the
slice and its keys are exactly the slice's, the slice holds each key once, `Contains` reads the
slice, `Remove` reports whether the PID was contained, and `Len` counts the keys added and not
removed since, which are the keys with an entry. -/
theorem pidSet_representation (ops : List PIDSetOp) :
    (∀ k i, (runOps ops).lookup k = some i ↔ (runOps ops).pids[i]?.map key = some k) ∧
    (∀ k, ((runOps ops).lookup k).isSome ↔ k ∈ (runOps ops).pids.map key) ∧
    ((runOps ops).pids.map key).Nodup ∧
    (∀ v, (runOps ops).contains v = true ↔ ∃ p ∈ (runOps ops).values, key p = key v) ∧
    (∀ v, ((runOps ops).remove v).2 = (runOps ops).contains v) ∧
    (∀ k, ((runOps ops).lookup k).isSome ↔ k ∈ keysAfter ops) ∧
    (runOps ops).len = (keysAfter ops).card := by
  obtain ⟨h, hA⟩ := valid_abstracts_runFrom ops valid_empty abstracts_empty
  exact ⟨h.inverse, h.isSome_lookup_iff, h.nodup_keys, h.contains_iff,
    remove_snd (runOps ops), hA, h.len_eq_card hA⟩

end PIDSet

end ProtoActor.Actor
