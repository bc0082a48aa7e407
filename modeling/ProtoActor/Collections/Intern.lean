import Mathlib.Data.List.Basic

/-!
# Interning tables

A table that numbers keys in the order they first appear: a map from each key to its number, and
the list of stored values in number order.  `Table.add key store t x` gives `x` the number of its
key, or the next number, storing `store x` there.  Codecs use such tables to send each distinct
name or address once and refer to it by number.

`Table.Built key store t xs` says that `t` was built by adding the elements of `xs`: every number
the map gives names a stored value of an added element with that key, and every added element's
key has a number.  When two added elements with the same key store the same value (the key does
not merge different values), the number `add` returns names the value stored for the element
itself (`Built.get_add`); tables only grow, so it keeps naming it (`add_arr_prefix`).
-/

namespace ProtoActor.Collections

/-- An interning table from keys `κ` to stored values `β`. -/
structure Table (κ β : Type) where
  map : List (κ × Nat)
  arr : List β

namespace Table

variable {α κ β : Type} [DecidableEq κ]

/-- The empty table. -/
def empty : Table κ β :=
  ⟨[], []⟩

/-- Number `x` by its key: the number the key has, or the next one, storing `store x`. -/
def add (key : α → κ) (store : α → β) (t : Table κ β) (x : α) : Nat × Table κ β :=
  match t.map.lookup (key x) with
  | some id => (id, t)
  | none => (t.map.length, ⟨t.map ++ [(key x, t.map.length)], t.arr ++ [store x]⟩)

theorem lookup_append_singleton (l : List (κ × Nat)) (k k' : κ) (n : Nat) :
    (l ++ [(k', n)]).lookup k = ((l.lookup k).or (if k = k' then some n else none)) := by
  induction l with
  | nil =>
    by_cases h : k = k'
    · subst h; simp [List.lookup_nil]
    · simp [List.lookup_cons, List.lookup_nil, h, beq_false_of_ne h]
  | cons p l ih =>
    obtain ⟨a, b⟩ := p
    by_cases h : k = a
    · subst h; simp
    · simp [List.lookup_cons, beq_false_of_ne h, ih]

/-- `t` was built by adding the elements of `xs`. -/
structure Built (key : α → κ) (store : α → β) (t : Table κ β) (xs : List α) : Prop where
  length_eq : t.arr.length = t.map.length
  get_lookup : ∀ k i, t.map.lookup k = some i → ∃ x ∈ xs, key x = k ∧ t.arr[i]? = some (store x)
  lookup_added : ∀ x ∈ xs, (t.map.lookup (key x)).isSome

variable {key : α → κ} {store : α → β}

theorem built_empty : (empty : Table κ β).Built key store [] where
  length_eq := rfl
  get_lookup := by simp [empty]
  lookup_added := by simp

/-- Adding an element keeps the table built from what was added. -/
theorem Built.add {t : Table κ β} {xs : List α} (ht : t.Built key store xs) (x : α) :
    (t.add key store x).2.Built key store (xs ++ [x]) := by
  unfold Table.add
  cases hx : t.map.lookup (key x) with
  | some id =>
    refine ⟨ht.length_eq, fun k i hk => ?_, fun y hy => ?_⟩
    · obtain ⟨z, hz, hzk, hget⟩ := ht.get_lookup k i hk
      exact ⟨z, List.mem_append_left _ hz, hzk, hget⟩
    · rcases List.mem_append.mp hy with hy | hy
      · exact ht.lookup_added y hy
      · rw [List.mem_singleton.mp hy, hx]; rfl
  | none =>
    refine ⟨by simp [ht.length_eq], fun k i hk => ?_, fun y hy => ?_⟩
    · rw [lookup_append_singleton] at hk
      cases hold : t.map.lookup k with
      | some j =>
        -- an old key keeps its number and its value
        rw [hold, Option.some_or] at hk
        have hji : j = i := Option.some.inj hk
        subst hji
        obtain ⟨z, hz, hzk, hget⟩ := ht.get_lookup k j hold
        obtain ⟨hlt, -⟩ := List.getElem?_eq_some_iff.mp hget
        exact ⟨z, List.mem_append_left _ hz, hzk, (List.getElem?_append_left hlt).trans hget⟩
      | none =>
        -- the new key gets the next number, where `store x` now sits
        rw [hold, Option.none_or] at hk
        by_cases hkx : k = key x
        · rw [if_pos hkx] at hk
          cases hk
          refine ⟨x, by simp, hkx.symm, ?_⟩
          rw [← ht.length_eq]
          simp
        · rw [if_neg hkx] at hk
          cases hk
    · rw [lookup_append_singleton]
      rcases List.mem_append.mp hy with hy | hy
      · have hsome := ht.lookup_added y hy
        cases hlook : t.map.lookup (key y) with
        | some _ => simp
        | none => simp [hlook] at hsome
      · rw [List.mem_singleton.mp hy, hx]
        simp

/-- Tables only grow: what was stored stays where it was. -/
theorem add_arr_prefix (t : Table κ β) (x : α) : t.arr <+: (t.add key store x).2.arr := by
  unfold Table.add
  split
  · exact List.prefix_refl _
  · exact List.prefix_append _ _

/-- What a prefix holds at an index, the whole list holds there too. -/
theorem getElem?_of_prefix {l l' : List β} (h : l <+: l') {i : Nat} {b : β}
    (hi : l[i]? = some b) : l'[i]? = some b := by
  obtain ⟨t, rfl⟩ := h
  obtain ⟨hlt, -⟩ := List.getElem?_eq_some_iff.mp hi
  rwa [List.getElem?_append_left hlt]

/-- **The number of an added element.** When equal keys store equal values among the added
elements, the number `add` gives `x` names `store x`. -/
theorem Built.get_add {t : Table κ β} {xs : List α} (ht : t.Built key store xs) (x : α)
    (hinj : ∀ y ∈ xs ++ [x], key y = key x → store y = store x) :
    (t.add key store x).2.arr[(t.add key store x).1]? = some (store x) := by
  have hbuilt := ht.add x
  have hsome := hbuilt.lookup_added x (by simp)
  obtain ⟨i, hi⟩ := Option.isSome_iff_exists.mp hsome
  -- the number returned is the number the key now has
  have hid : (t.add key store x).1 = i := by
    unfold Table.add at hi ⊢
    cases hx : t.map.lookup (key x) with
    | some id =>
      simp only [hx] at hi ⊢
      exact Option.some.inj hi
    | none =>
      simp only [hx] at hi ⊢
      rw [lookup_append_singleton, hx, Option.none_or, if_pos rfl] at hi
      exact Option.some.inj hi
  obtain ⟨y, hy, hyk, hget⟩ := hbuilt.get_lookup (key x) i hi
  rw [hid, hget, hinj y hy hyk]

end Table

end ProtoActor.Collections
