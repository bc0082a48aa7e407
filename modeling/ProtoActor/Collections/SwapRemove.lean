import Mathlib.Data.List.Nodup

/-!
# Removal by swapping with the last slot

A slice whose order does not matter loses an element in constant time by moving its last element
into the freed slot and dropping the last slot: `(l.set i y).dropLast`, with `y` the last element.
These are the facts about the slots and the members of the result that the sets built this way
rely on, and what a rewrite of one slot in place keeps.
-/

namespace ProtoActor.Collections

variable {α : Type}

/-- The slots after the removal: slot `i` holds the last element, the last slot is gone. -/
theorem getElem?_set_dropLast {l : List α} {i : ℕ} {y : α} (hi : i < l.length) (j : ℕ) :
    ((l.set i y).dropLast)[j]? =
      if j < l.length - 1 then (if j = i then some y else l[j]?) else none := by
  rw [List.getElem?_dropLast, List.getElem?_set, List.length_set]
  by_cases hj : j < l.length - 1
  · by_cases hji : j = i
    · subst hji
      simp [hj, hi]
    · simp [hj, hji, Ne.symm hji]
  · simp [hj]

theorem length_set_dropLast (l : List α) (i : ℕ) (y : α) :
    ((l.set i y).dropLast).length = l.length - 1 := by
  rw [List.length_dropLast, List.length_set]

/-- Without duplicates, the removal takes out exactly the element of slot `i`. -/
theorem mem_set_dropLast {l : List α} (hnd : l.Nodup) {i : ℕ} {x y : α} (hx : l[i]? = some x)
    (hy : l[l.length - 1]? = some y) (z : α) :
    z ∈ (l.set i y).dropLast ↔ z ∈ l ∧ z ≠ x := by
  have hi : i < l.length := (List.getElem?_eq_some_iff.mp hx).1
  -- two slots holding one element are one slot
  have hslot : ∀ {j k : ℕ} {w : α}, l[j]? = some w → l[k]? = some w → j = k :=
    fun hj hk => (List.getElem?_inj (List.getElem?_eq_some_iff.mp hj).1 hnd).mp (hj.trans hk.symm)
  simp only [List.mem_iff_getElem?, getElem?_set_dropLast hi]
  constructor
  · rintro ⟨j, hj⟩
    split_ifs at hj with hlt hji
    · -- the moved last element, which is not `x` unless `x` sat last
      cases hj
      refine ⟨⟨_, hy⟩, fun hzx => ?_⟩
      subst hzx
      have := hslot hy hx
      omega
    · refine ⟨⟨j, hj⟩, fun hzx => ?_⟩
      subst hzx
      exact hji (hslot hj hx)
  · rintro ⟨⟨j, hj⟩, hzx⟩
    have hjlen : j < l.length := (List.getElem?_eq_some_iff.mp hj).1
    have hji : j ≠ i := fun hji => by
      subst hji
      rw [hx, Option.some_inj] at hj
      exact hzx hj.symm
    by_cases hjl : j < l.length - 1
    · exact ⟨j, by simp [hjl, hji, hj]⟩
    · -- `z` sat last, and now sits in slot `i`
      have hjlast : j = l.length - 1 := by omega
      subst hjlast
      rw [hy, Option.some_inj] at hj
      subst hj
      exact ⟨i, by simp [show i < l.length - 1 by omega]⟩

/-! ### Rewriting a slot in place -/

section InPlace

variable {β : Type} (f : α → β)

/-- Setting a slot to a value that `f` does not tell from the old one keeps `f` of every slot. -/
theorem map_getElem?_set {l : List α} {i : ℕ} {a b : α} (hi : l[i]? = some b) (hf : f a = f b)
    (j : ℕ) : (l.set i a)[j]?.map f = l[j]?.map f := by
  rw [List.getElem?_set]
  split_ifs with hij hlt
  · subst hij
    rw [hi, Option.map_some, Option.map_some, hf]
  · subst hij
    exact absurd (List.getElem?_eq_some_iff.mp hi).1 hlt
  · rfl

/-- Modifying a slot by a map that `f` does not see keeps `f` of every slot. -/
theorem map_getElem?_modify (l : List α) (i : ℕ) {g : α → α} (hg : ∀ a, f (g a) = f a) (j : ℕ) :
    (l.modify i g)[j]?.map f = l[j]?.map f := by
  rw [List.getElem?_modify]
  cases l[j]? with
  | none => rfl
  | some a =>
    simp only [Option.map_eq_map, Option.map_some, Option.some_inj]
    split_ifs
    · exact hg a
    · rfl

/-- Modifying the slot just appended. -/
theorem modify_append_singleton_length (l : List α) (x : α) (g : α → α) :
    (l ++ [x]).modify l.length g = l ++ [g x] := by
  apply List.ext_getElem?
  intro j
  rw [List.getElem?_modify]
  simp only [List.getElem?_append]
  rcases Nat.lt_trichotomy j l.length with h | rfl | h
  · simp [h, Nat.ne_of_gt h]
  · simp
  · simp [Nat.not_lt.mpr (Nat.le_of_lt h), Nat.ne_of_lt h, Nat.sub_ne_zero_of_lt h]

end InPlace

end ProtoActor.Collections
