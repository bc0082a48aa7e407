import Mathlib.Data.List.Basic

/-!
# Splitting at a separator

An identifier made of two parts joined by a separator, `pre ++ "/" ++ name` or
`address ++ "@" ++ id`, can be read back when one of the parts cannot hold the separator: the
first occurrence splits the string when the part before it has none, the last when the part after
it has none.
-/

namespace ProtoActor.Collections

variable {α : Type} {x y : α} {as bs zs ws : List α}

/-- Two lists that end in `x` followed by no `y`, and in `y` followed by no `x`, split at those
separators in one way only: the separators agree, and so do the parts before and after them. -/
theorem eq_of_append_cons_eq_append_cons (hx : x ∉ ws) (hy : y ∉ zs)
    (h : as ++ x :: zs = bs ++ y :: ws) : x = y ∧ as = bs ∧ zs = ws := by
  rcases List.append_eq_append_iff.mp h with ⟨c, hbs, hc⟩ | ⟨c, has, hc⟩
  · -- `as` is a prefix of `bs`
    cases c with
    | nil =>
      obtain ⟨rfl, rfl⟩ := List.cons.inj hc
      exact ⟨rfl, by simpa using hbs.symm, rfl⟩
    | cons d c =>
      -- `y` would then stand after `x`
      obtain ⟨-, rfl⟩ := List.cons.inj hc
      exact absurd (List.mem_append_right c List.mem_cons_self) hy
  · -- `bs` is a prefix of `as`
    cases c with
    | nil =>
      obtain ⟨rfl, rfl⟩ := List.cons.inj hc
      exact ⟨rfl, by simpa using has, rfl⟩
    | cons d c =>
      obtain ⟨-, rfl⟩ := List.cons.inj hc
      exact absurd (List.mem_append_right c List.mem_cons_self) hx

/-- The same at the first separator: the parts before it hold no separator. -/
theorem eq_of_append_cons_eq_append_cons_of_not_mem_left (hx : x ∉ bs) (hy : y ∉ as)
    (h : as ++ x :: zs = bs ++ y :: ws) : x = y ∧ as = bs ∧ zs = ws := by
  -- read backwards, the first separator is the last one
  have hrev : zs.reverse ++ x :: as.reverse = ws.reverse ++ y :: bs.reverse := by
    simpa using congrArg List.reverse h
  obtain ⟨hxy, hzs, has⟩ := eq_of_append_cons_eq_append_cons (by simpa using hx)
    (by simpa using hy) hrev
  exact ⟨hxy, List.reverse_inj.mp has, List.reverse_inj.mp hzs⟩

end ProtoActor.Collections
