import Mathlib.Order.Lattice
import ProtoActor.Transition.Run

/-!
# The first maximum of a scan

A scan that keeps the best score so far and replaces it only on a strictly higher score
(`maxStep`) ends with the first element of highest score, provided that score beats the
starting one; otherwise it ends where it started.  `FirstAbove f m l x` says that `x` is that
element: every element before it scores lower, none after it scores higher, and it beats `m`.

Nothing here names the repository.
-/

namespace ProtoActor.Order

open ProtoActor.Transition

variable {β γ : Type*} [LinearOrder γ]

/-- One step of the scan: a strictly higher score replaces the best so far. -/
def maxStep (f : β → γ) (acc : γ × Option β) (x : β) : γ × Option β :=
  if acc.1 < f x then (f x, some x) else acc

/-- `x` is the first element of `l` of highest score, and that score is above `m`. -/
def FirstAbove (f : β → γ) (m : γ) (l : List β) (x : β) : Prop :=
  ∃ pre post, l = pre ++ x :: post ∧ m < f x ∧ (∀ y ∈ pre, f y < f x) ∧ ∀ y ∈ post, f y ≤ f x

theorem FirstAbove.mem {f : β → γ} {m : γ} {l : List β} {x : β} (h : FirstAbove f m l x) :
    x ∈ l := by
  obtain ⟨pre, post, rfl, -⟩ := h
  simp

/-- **The scan finds the first maximum**: either nothing beats the starting score and the scan
ends where it started, or it ends on the first element of highest score. -/
theorem runFrom_maxStep (f : β → γ) (l : List β) (m : γ) (o : Option β) :
    ((∀ y ∈ l, f y ≤ m) ∧ runFrom (maxStep f) (m, o) l = (m, o)) ∨
      ∃ x, FirstAbove f m l x ∧ runFrom (maxStep f) (m, o) l = (f x, some x) := by
  induction l generalizing m o with
  | nil => exact .inl ⟨by simp, rfl⟩
  | cons y l ih =>
    rw [runFrom_cons]
    by_cases hy : m < f y
    · -- `y` is the best so far; the rest either never beats it or holds the first maximum
      rw [maxStep, if_pos hy]
      rcases ih (f y) (some y) with ⟨hle, hrun⟩ | ⟨x, ⟨pre, post, rfl, hlt, hpre, hpost⟩, hrun⟩
      · exact .inr ⟨y, ⟨[], l, rfl, hy, by simp, hle⟩, hrun⟩
      · refine .inr ⟨x, ⟨y :: pre, post, rfl, hy.trans hlt, ?_, hpost⟩, hrun⟩
        intro z hz
        rcases List.mem_cons.mp hz with rfl | hz
        · exact hlt
        · exact hpre z hz
    · -- `y` does not beat the best so far, and so is below any later maximum
      have hy : f y ≤ m := not_lt.mp hy
      rw [maxStep, if_neg (not_lt.mpr hy)]
      rcases ih m o with ⟨hle, hrun⟩ | ⟨x, ⟨pre, post, rfl, hlt, hpre, hpost⟩, hrun⟩
      · refine .inl ⟨?_, hrun⟩
        intro z hz
        rcases List.mem_cons.mp hz with rfl | hz
        · exact hy
        · exact hle z hz
      · refine .inr ⟨x, ⟨y :: pre, post, rfl, hlt, ?_, hpost⟩, hrun⟩
        intro z hz
        rcases List.mem_cons.mp hz with rfl | hz
        · exact hy.trans_lt hlt
        · exact hpre z hz

end ProtoActor.Order
