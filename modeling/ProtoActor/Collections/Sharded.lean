import Mathlib.Logic.Function.Basic
import Mathlib.Data.List.Basic

/-!
# Maps kept in buckets

A concurrent map keeps its entries in buckets, the bucket of a key being picked by a function of
the key alone.  A bucket is an association list here, searched from its head (`List.lookup`),
with the two writes such maps offer: `setIfAbsent`, which inserts under a key that has no value
and says whether it did, and `pop`, which removes a key and returns its value.  `Sharded.get` is
the value of a key in the map: the value in the key's bucket.

A write on the bucket of `key` that changes the lookup of no other key (`OnlyAt`) changes the
map's `get` at `key` only, whatever function picks the buckets (`get_setBucket`).  So the
bucketed `setIfAbsent` and `pop` answer and update as they do on one map, the function
`get` (`get_setIfAbsent`, `setIfAbsent_snd`, `get_pop`): the buckets cannot be
observed through these operations.

Nothing here names the repository.
-/

namespace ProtoActor.Collections

variable {κ ν : Type} [DecidableEq κ]

/-! ### One bucket -/

/-- Insert `value` under `key` unless the key has a value; whether it inserted. -/
def setIfAbsent (b : List (κ × ν)) (key : κ) (value : ν) : List (κ × ν) × Bool :=
  match b.lookup key with
  | some _ => (b, false)
  | none => ((key, value) :: b, true)

/-- The value under `key`, and the bucket without the key. -/
def pop (b : List (κ × ν)) (key : κ) : Option ν × List (κ × ν) :=
  (b.lookup key, b.filter (fun e => e.1 ≠ key))

/-- The bucket `b'` differs from `b` at most in the value of `key`. -/
def OnlyAt (key : κ) (b b' : List (κ × ν)) : Prop :=
  ∀ k, k ≠ key → b'.lookup k = b.lookup k

theorem lookup_setIfAbsent (b : List (κ × ν)) (key k : κ) (value : ν) :
    (setIfAbsent b key value).1.lookup k =
      if k = key ∧ b.lookup key = none then some value else b.lookup k := by
  unfold setIfAbsent
  split
  · rename_i v hv
    simp [hv]
  · rename_i hv
    by_cases hk : k = key
    · subst hk
      simp [hv]
    · simp [List.lookup_cons, beq_false_of_ne hk, hk]

theorem setIfAbsent_snd (b : List (κ × ν)) (key : κ) (value : ν) :
    (setIfAbsent b key value).2 = (b.lookup key).isNone := by
  unfold setIfAbsent
  split <;> rename_i hv <;> simp only [hv, Option.isNone_some, Option.isNone_none]

theorem lookup_filter_ne (b : List (κ × ν)) (key k : κ) :
    (b.filter (fun e => e.1 ≠ key)).lookup k = if k = key then none else b.lookup k := by
  induction b with
  | nil => simp
  | cons e b ih =>
    obtain ⟨k', v⟩ := e
    by_cases hk' : k' = key
    · -- the entry of `key` is dropped
      subst hk'
      have hf : ((k', v) :: b).filter (fun e => e.1 ≠ k') = b.filter (fun e => e.1 ≠ k') := by
        simp
      rw [hf, ih]
      by_cases hk : k = k'
      · simp [hk]
      · simp [hk, List.lookup_cons, beq_false_of_ne hk]
    · -- the entry of another key is kept
      have hf : ((k', v) :: b).filter (fun e => e.1 ≠ key) =
          (k', v) :: b.filter (fun e => e.1 ≠ key) := by
        simp [hk']
      rw [hf]
      by_cases hk : k = k'
      · subst hk
        simp [hk']
      · simp only [List.lookup_cons, beq_false_of_ne hk]
        exact ih

theorem onlyAt_setIfAbsent (b : List (κ × ν)) (key : κ) (value : ν) :
    OnlyAt key b (setIfAbsent b key value).1 := by
  intro k hk
  simp [lookup_setIfAbsent, hk]

theorem onlyAt_pop (b : List (κ × ν)) (key : κ) : OnlyAt key b (pop b key).2 := by
  intro k hk
  simp only [pop]
  rw [lookup_filter_ne, if_neg hk]

/-! ### Buckets -/

/-- A map whose entries are kept in `n` buckets. -/
structure Sharded (κ ν : Type) (n : ℕ) where
  buckets : Fin n → List (κ × ν)

namespace Sharded

variable {n : ℕ} (shard : κ → Fin n)

/-- No entry in any bucket. -/
def empty : Sharded κ ν n :=
  ⟨fun _ => []⟩

/-- The value of `key`: its bucket's. -/
def get (m : Sharded κ ν n) (key : κ) : Option ν :=
  (m.buckets (shard key)).lookup key

/-- The map with the bucket of `key` replaced by `b`. -/
def setBucket (m : Sharded κ ν n) (key : κ) (b : List (κ × ν)) : Sharded κ ν n :=
  ⟨Function.update m.buckets (shard key) b⟩

/-- `SetIfAbsent` on the bucket of `key`. -/
def setIfAbsent (m : Sharded κ ν n) (key : κ) (value : ν) : Sharded κ ν n × Bool :=
  let r := Collections.setIfAbsent (m.buckets (shard key)) key value
  (m.setBucket shard key r.1, r.2)

/-- `Pop` on the bucket of `key`. -/
def pop (m : Sharded κ ν n) (key : κ) : Option ν × Sharded κ ν n :=
  let r := Collections.pop (m.buckets (shard key)) key
  (r.1, m.setBucket shard key r.2)

@[simp] theorem get_empty (key : κ) : (empty : Sharded κ ν n).get shard key = none := rfl

/-- **Buckets are invisible.** Rewriting the bucket of `key` in a way that changes no other key's
lookup changes the map at `key` only, whichever keys share the bucket. -/
theorem get_setBucket (m : Sharded κ ν n) {key : κ} {b : List (κ × ν)}
    (h : OnlyAt key (m.buckets (shard key)) b) (k : κ) :
    (m.setBucket shard key b).get shard k = if k = key then b.lookup key else m.get shard k := by
  unfold get setBucket
  by_cases hk : k = key
  · subst hk
    simp
  · rw [if_neg hk]
    by_cases hs : shard k = shard key
    · -- a key that shares the bucket: its lookup is unchanged
      simp only [hs, Function.update_self]
      exact h k hk
    · simp [Function.update_of_ne hs]

theorem get_setIfAbsent (m : Sharded κ ν n) (key k : κ) (value : ν) :
    (m.setIfAbsent shard key value).1.get shard k =
      if k = key ∧ m.get shard key = none then some value else m.get shard k := by
  unfold setIfAbsent
  rw [get_setBucket shard m (onlyAt_setIfAbsent _ _ _), lookup_setIfAbsent]
  by_cases hk : k = key
  · subst hk
    rw [if_pos rfl]
    rfl
  · simp [hk]

theorem setIfAbsent_snd (m : Sharded κ ν n) (key : κ) (value : ν) :
    (m.setIfAbsent shard key value).2 = (m.get shard key).isNone :=
  Collections.setIfAbsent_snd _ _ _

theorem get_pop (m : Sharded κ ν n) (key k : κ) :
    (m.pop shard key).2.get shard k = if k = key then none else m.get shard k := by
  unfold pop
  rw [get_setBucket shard m (onlyAt_pop _ _)]
  simp only [Collections.pop]
  rw [lookup_filter_ne, if_pos rfl]

end Sharded

end ProtoActor.Collections
