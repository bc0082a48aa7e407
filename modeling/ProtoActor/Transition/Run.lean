import Mathlib.Logic.Relation
import Mathlib.Data.List.Basic

/-!
# Runs of transition systems

Every stateful component of the development is one of two shapes.

* A function `step : σ → ι → σ` that consumes one input at a time: a context processing the
  system messages of its mailbox, a future receiving replies, a member list receiving topology
  updates.  `runFrom step s is` is the state after the inputs `is`; `runFrom_induction` is the
  invariant rule for it and `runFrom_append` splits a run in two.
* A relation `step : σ → σ → Prop` on a global state whose steps are the atomic operations of
  several goroutines, taken in any interleaving.  `Reachable init step` are the states reached
  from an initial one, and `reachable_induction` is the invariant rule: a predicate that holds
  initially and is kept by every step holds in every reachable state.  Where the goroutines
  are a list, a step picks one of them (`mem_pick`, `countP_pick`).

`Stable` names the predicates that, once true, stay true: they are how the development states
that something happened and can never be undone.  A function that also returns a result on
each input, `step : σ → ι → ο × σ`, is compared with a specification by `outputs_eq_of_simulation`.
A concrete interleaving is replayed by `replay`, and `reachable_of_replay` shows its last state
reachable.

A retry loop that waits on the outside world is a third shape: `loop body s is` runs `body` once
per turn, the environment resolving each turn with an input, until the body returns.
`loop_isSome` is its termination rule.

Nothing here names the repository.
-/

namespace ProtoActor.Transition

variable {σ ι : Type*}

/-! ### Relations -/

/-- The states reachable by finitely many `step`s from a state satisfying `init`. -/
def Reachable (init : σ → Prop) (step : σ → σ → Prop) (s : σ) : Prop :=
  ∃ s₀, init s₀ ∧ Relation.ReflTransGen step s₀ s

theorem Reachable.of_init {init : σ → Prop} {step : σ → σ → Prop} {s : σ} (h : init s) :
    Reachable init step s :=
  ⟨s, h, Relation.ReflTransGen.refl⟩

theorem Reachable.tail {init : σ → Prop} {step : σ → σ → Prop} {s s' : σ}
    (h : Reachable init step s) (hs : step s s') : Reachable init step s' := by
  obtain ⟨s₀, h₀, hrun⟩ := h
  exact ⟨s₀, h₀, hrun.tail hs⟩

/-- **Invariant rule.** A predicate that holds initially and is kept by every step holds in
every reachable state. -/
theorem reachable_induction {init : σ → Prop} {step : σ → σ → Prop} {P : σ → Prop}
    (hinit : ∀ s, init s → P s) (hstep : ∀ s s', P s → step s s' → P s') :
    ∀ s, Reachable init step s → P s := by
  rintro s ⟨s₀, h₀, hrun⟩
  induction hrun with
  | refl => exact hinit s₀ h₀
  | tail _ hs ih => exact hstep _ _ ih hs

/-- A predicate that, once true, stays true under `step`. -/
def Stable (step : σ → σ → Prop) (P : σ → Prop) : Prop :=
  ∀ s s', step s s' → P s → P s'

theorem Stable.reflTransGen {step : σ → σ → Prop} {P : σ → Prop} (hP : Stable step P)
    {s s' : σ} (hrun : Relation.ReflTransGen step s s') (hs : P s) : P s' := by
  induction hrun with
  | refl => exact hs
  | tail _ hstep ih => exact hP _ _ hstep ih

/-! ### Functions consuming inputs -/

/-- The state reached from `s` by consuming the inputs `is` in order. -/
def runFrom (step : σ → ι → σ) (s : σ) (is : List ι) : σ :=
  is.foldl step s

@[simp] theorem runFrom_nil (step : σ → ι → σ) (s : σ) : runFrom step s [] = s := rfl

@[simp] theorem runFrom_cons (step : σ → ι → σ) (s : σ) (i : ι) (is : List ι) :
    runFrom step s (i :: is) = runFrom step (step s i) is := rfl

theorem runFrom_append (step : σ → ι → σ) (s : σ) (is js : List ι) :
    runFrom step s (is ++ js) = runFrom step (runFrom step s is) js :=
  List.foldl_append

/-- **Invariant rule for runs.** A predicate kept by every input holds after any run from a state
that satisfies it. -/
theorem runFrom_induction {step : σ → ι → σ} {P : σ → Prop} (hstep : ∀ s i, P s → P (step s i))
    {s : σ} (hs : P s) (is : List ι) : P (runFrom step s is) := by
  induction is generalizing s with
  | nil => exact hs
  | cons i is ih => exact ih (hstep s i hs)

/-- **Invariant rule for runs, input by input.** A predicate kept by every input of `is` holds
after the run of `is` from a state that satisfies it. -/
theorem runFrom_induction_mem {step : σ → ι → σ} {P : σ → Prop} {is : List ι}
    (hstep : ∀ s, ∀ i ∈ is, P s → P (step s i)) {s : σ} (hs : P s) : P (runFrom step s is) := by
  induction is generalizing s with
  | nil => exact hs
  | cons i is ih =>
    exact ih (fun s' i' hi' => hstep s' i' (List.mem_cons_of_mem i hi')) (hstep s i List.mem_cons_self hs)

/-- **Running inputs.** If every input is a step, a run from a reachable state ends in a
reachable state. -/
theorem Reachable.runFrom {init : σ → Prop} {step : σ → σ → Prop} {next : σ → ι → σ}
    (hnext : ∀ s i, step s (next s i)) {s : σ} (hs : Reachable init step s) (is : List ι) :
    Reachable init step (runFrom next s is) :=
  runFrom_induction (fun s i h => h.tail (hnext s i)) hs is

/-- The state after the inputs `is`, if each of them applies in turn. -/
def replay (next : σ → ι → Option σ) : σ → List ι → Option σ
  | s, [] => some s
  | s, i :: is => (next s i).bind fun s' => replay next s' is

theorem replay_append (next : σ → ι → Option σ) (is js : List ι) :
    ∀ s : σ, replay next s (is ++ js) = (replay next s is).bind fun s' => replay next s' js := by
  induction is with
  | nil => intro s; rfl
  | cons i is ih =>
    intro s
    show ((next s i).bind fun s' => replay next s' (is ++ js)) =
      ((next s i).bind fun s' => replay next s' is).bind fun s' => replay next s' js
    cases next s i with
    | none => rfl
    | some s' => exact ih s'

/-- **Where a replay stops.** When whether an input fails does not depend on the state, a replay
fails exactly when one of its inputs is one that fails. -/
theorem replay_eq_none_iff {next : σ → ι → Option σ} {fails : ι → Prop}
    (h : ∀ s i, next s i = none ↔ fails i) :
    ∀ (s : σ) (is : List ι), replay next s is = none ↔ ∃ i ∈ is, fails i
  | s, [] => by simp [replay]
  | s, i :: is => by
    simp only [List.mem_cons, exists_eq_or_imp]
    cases hs : next s i with
    | none => simp [replay, hs, (h s i).mp hs]
    | some s' =>
      have hok : ¬fails i := fun hf => by rw [(h s i).mpr hf] at hs; cases hs
      rw [replay, hs, Option.bind_some, replay_eq_none_iff h s' is]
      exact ⟨Or.inr, fun hor => hor.resolve_left hok⟩

/-- **Replaying a trace.** If every input that applies is a step, a trace that applies from a
reachable state ends in a reachable state. -/
theorem reachable_of_replay {init : σ → Prop} {step : σ → σ → Prop} {next : σ → ι → Option σ}
    (hnext : ∀ s i s', next s i = some s' → step s s') :
    ∀ (is : List ι) {s s' : σ}, Reachable init step s → replay next s is = some s' →
      Reachable init step s'
  | [], _, _, hs, h => by
    simp only [replay, Option.some.injEq] at h
    exact h ▸ hs
  | i :: is, s, s', hs, h => by
    simp only [replay] at h
    cases hi : next s i with
    | none => simp [hi] at h
    | some s₁ =>
      rw [hi, Option.bind_some] at h
      exact reachable_of_replay hnext is (hs.tail (hnext s i s₁ hi)) h

/-- A trace that applies from an initial state, and ends where the test `p` passes, ends in a
reachable state where it passes. -/
theorem exists_reachable_of_replay {init : σ → Prop} {step : σ → σ → Prop}
    {next : σ → ι → Option σ} (hnext : ∀ s i s', next s i = some s' → step s s') {s₀ : σ}
    (h₀ : init s₀) (is : List ι) {p : σ → Bool} (h : (replay next s₀ is).map p = some true) :
    ∃ s, Reachable init step s ∧ p s = true := by
  cases hr : replay next s₀ is with
  | none => simp [hr] at h
  | some s =>
    rw [hr, Option.map_some, Option.some.injEq] at h
    exact ⟨s, reachable_of_replay hnext is (Reachable.of_init h₀) hr, h⟩

/-! ### Machines that answer each input

A component whose operations return a result is a function `step : σ → ι → ο × σ`; `outputs`
lists the results of a run.  Two such machines are compared by a simulation: a relation between
their states that every input keeps and under which they answer alike. -/

section Outputs

variable {τ ο : Type*}

/-- The results of the inputs `is` from the state `s`, in order. -/
def outputs (step : σ → ι → ο × σ) : σ → List ι → List ο
  | _, [] => []
  | s, i :: is => (step s i).1 :: outputs step (step s i).2 is

@[simp] theorem outputs_nil (step : σ → ι → ο × σ) (s : σ) : outputs step s [] = [] := rfl

@[simp] theorem outputs_cons (step : σ → ι → ο × σ) (s : σ) (i : ι) (is : List ι) :
    outputs step s (i :: is) = (step s i).1 :: outputs step (step s i).2 is := rfl

/-- Inputs read through a map are the mapped machine's inputs. -/
theorem outputs_map {κ : Type*} (step : σ → ι → ο × σ) (g : κ → ι) :
    ∀ (s : σ) (ks : List κ), outputs step s (ks.map g) = outputs (fun s k => step s (g k)) s ks
  | _, [] => rfl
  | s, k :: ks => by rw [List.map_cons, outputs_cons, outputs_cons, outputs_map step g _ ks]

/-- **Simulation rule.** If related states answer every input alike and stay related, related
states answer every run alike and end related. -/
theorem outputs_eq_of_simulation {f : σ → ι → ο × σ} {g : τ → ι → ο × τ} (R : σ → τ → Prop)
    (hstep : ∀ s t i, R s t → (f s i).1 = (g t i).1 ∧ R (f s i).2 (g t i).2) :
    ∀ (is : List ι) {s : σ} {t : τ}, R s t →
      outputs f s is = outputs g t is ∧
        R (runFrom (fun s i => (f s i).2) s is) (runFrom (fun t i => (g t i).2) t is)
  | [], _, _, h => ⟨rfl, h⟩
  | i :: is, s, t, h => by
    obtain ⟨hout, hR⟩ := hstep s t i h
    obtain ⟨houts, hend⟩ := outputs_eq_of_simulation R hstep is hR
    exact ⟨by rw [outputs_cons, outputs_cons, hout, houts], hend⟩

/-- The answers of a run in two parts: those of the first, then those of the second from where
the first ended. -/
theorem outputs_append (step : σ → ι → ο × σ) (is js : List ι) :
    ∀ s : σ, outputs step s (is ++ js) =
      outputs step s is ++ outputs step (runFrom (fun s i => (step s i).2) s is) js := by
  induction is with
  | nil => intro s; rfl
  | cons i is ih =>
    intro s
    rw [List.cons_append, outputs_cons, outputs_cons, ih, runFrom_cons, List.cons_append]

end Outputs

/-! ### Pools of goroutines

A global state keeps its goroutines of one kind in a list, and a step picks one of them, found
between `pre` and `post`: it puts back what the goroutine becomes, or nothing when it returns. -/

section Pool

variable {α : Type*} {pre post : List α} {c x : α}

/-- A member of the pool is the one picked or one of the others. -/
theorem mem_pick : x ∈ pre ++ c :: post ↔ x = c ∨ x ∈ pre ++ post := by
  simp only [List.mem_append, List.mem_cons]
  tauto

theorem mem_pick_of_mem (c : α) (hx : x ∈ pre ++ post) : x ∈ pre ++ c :: post :=
  mem_pick.mpr (.inr hx)

/-- The only goroutine of a pool of one is the one picked. -/
theorem pick_eq_singleton (h : pre ++ c :: post = [x]) : pre = [] ∧ c = x ∧ post = [] := by
  rcases pre with _ | ⟨y, pre⟩
  · simpa using h
  · simp only [List.cons_append, List.cons.injEq, List.append_eq_nil_iff, reduceCtorEq,
      and_false] at h

theorem countP_pick (p : α → Bool) :
    (pre ++ c :: post).countP p = (pre ++ post).countP p + if p c then 1 else 0 := by
  simp only [List.countP_append, List.countP_cons]
  omega

/-- The goroutine at an index is picked between those before it and those after it. -/
theorem eq_take_append_cons_drop {l : List α} {i : ℕ} (h : l[i]? = some x) :
    l = l.take i ++ x :: l.drop (i + 1) := by
  obtain ⟨hi, hx⟩ := List.getElem?_eq_some_iff.mp h
  rw [← hx, List.getElem_cons_drop, List.take_append_drop]

end Pool

/-! ### Loops whose turns the environment resolves -/

section Loop

variable {ρ : Type*}

/-- A loop whose body, on the input `i` that resolves one turn, goes round again with a new state
(`inl`) or returns (`inr`).  `none` while the loop is still running when the inputs run out. -/
def loop (body : σ → ι → σ ⊕ ρ) : σ → List ι → Option ρ
  | _, [] => none
  | s, i :: is =>
    match body s i with
    | .inl s' => loop body s' is
    | .inr r => some r

variable {body : σ → ι → σ ⊕ ρ}

@[simp] theorem loop_nil (s : σ) : loop body s [] = none := rfl

theorem loop_cons_of_inl {s s' : σ} {i : ι} (h : body s i = .inl s') (is : List ι) :
    loop body s (i :: is) = loop body s' is := by
  simp [loop, h]

theorem loop_cons_of_inr {s : σ} {i : ι} {r : ρ} (h : body s i = .inr r) (is : List ι) :
    loop body s (i :: is) = some r := by
  simp [loop, h]

/-- **Termination rule for loops.** If every turn that goes round lowers a measure, the loop has
returned once it has had more turns than the measure of its first state. -/
theorem loop_isSome (μ : σ → ℕ) (hdec : ∀ s i s', body s i = .inl s' → μ s' < μ s) :
    ∀ (s : σ) (is : List ι), μ s < is.length → (loop body s is).isSome := by
  intro s is hlen
  induction is generalizing s with
  | nil => simp at hlen
  | cons i is ih =>
    cases hb : body s i with
    | inl s' =>
      rw [loop_cons_of_inl hb]
      have hlt := hdec s i s' hb
      exact ih s' (by simp at hlen; omega)
    | inr r => simp [loop_cons_of_inr hb]

end Loop

/-! ### Loops that return at the first error -/

section FirstError

variable {α ε β : Type}

/-- **First error.** A loop over a list in `Except` fails with `e` exactly when some element fails
with `e` and every element before it succeeds. -/
theorem mapM_eq_error_iff (f : α → Except ε β) (e : ε) :
    ∀ l : List α, l.mapM f = .error e ↔
      ∃ pre x post, l = pre ++ x :: post ∧ (∀ y ∈ pre, ∃ b, f y = .ok b) ∧ f x = .error e
  | [] => by simp [pure, Except.pure]
  | x :: l => by
    have ih := mapM_eq_error_iff f e l
    cases hx : f x with
    | error e' =>
      rw [List.mapM_cons, hx]
      simp only [bind, Except.bind, Except.error.injEq]
      constructor
      · rintro rfl
        exact ⟨[], x, l, rfl, by simp, hx⟩
      · rintro ⟨pre, x', post, heq, hpre, herr⟩
        cases pre with
        | nil =>
          obtain ⟨rfl, -⟩ := List.cons.inj heq
          rw [hx, Except.error.injEq] at herr
          exact herr
        | cons y pre =>
          obtain ⟨rfl, -⟩ := List.cons.inj heq
          obtain ⟨b, hb⟩ := hpre x List.mem_cons_self
          rw [hx] at hb
          cases hb
    | ok b =>
      -- the head succeeds, so the loop fails where the tail's loop does
      have hrest : (x :: l).mapM f = .error e ↔ l.mapM f = .error e := by
        rw [List.mapM_cons, hx]
        cases l.mapM f <;> simp [bind, Except.bind, pure, Except.pure]
      rw [hrest, ih]
      constructor
      · rintro ⟨pre, x', post, rfl, hpre, herr⟩
        refine ⟨x :: pre, x', post, rfl, ?_, herr⟩
        intro y hy
        rcases List.mem_cons.mp hy with rfl | hy
        · exact ⟨b, hx⟩
        · exact hpre y hy
      · rintro ⟨pre, x', post, heq, hpre, herr⟩
        cases pre with
        | nil =>
          obtain ⟨rfl, -⟩ := List.cons.inj heq
          rw [hx] at herr
          cases herr
        | cons y pre =>
          obtain ⟨rfl, rfl⟩ := List.cons.inj heq
          exact ⟨pre, x', post, rfl, fun z hz => hpre z (List.mem_cons_of_mem _ hz), herr⟩

end FirstError

end ProtoActor.Transition
