import Mathlib.Data.List.AList
import ProtoActor.Actor.Pid
import ProtoActor.Cluster.Member
import ProtoActor.Transition.Run

/-!
# The PID cache

`cluster/pid_cache.go`.  The cache maps a grain's identity and kind to the PID of its
activation, in a concurrent string map under the key `identity + "." + kind`.  `Get`, `Set` and
`Remove` use that key; `RemoveByValue` removes the entry only if it holds the given PID
(`PID.Equal` compares the address, the id and the request id, all the fields of a `PID`);
`RemoveByMember` walks a snapshot of the entries and removes each one whose PID's address is the
member's.  The map's shard locks are left out: every operation runs as one step.

What the cache is for is a map keyed by the pair (`PidCacheSpec`), with the same operations.

* `key_inj`: the key is injective on identities without a dot.
* `get_run_of_dotFree`: for every sequence of operations whose identities have no dot, `Get`
  answers as the map keyed by pairs does.
* `dotted_identity_shares_slot`: with a dot in an identity two pairs share a slot, and one
  grain's PID is returned, and removed, for the other.
-/

namespace ProtoActor.Cluster

open ProtoActor.Actor ProtoActor.Transition

/-! ### Erasing the entries whose value fails a test -/

section EraseWhere

variable {κ : Type} [DecidableEq κ] {β : Type}

/-- Walk a snapshot of the entries of `s` and erase each one whose value satisfies `p`. -/
def eraseWhere (p : β → Bool) (s : AList (fun _ : κ => β)) : AList (fun _ : κ => β) :=
  runFrom (fun c e => if p e.2 then c.erase e.1 else c) s s.entries

theorem lookup_runFrom_erase (p : β → Bool) (k : κ) :
    ∀ (es : List (Σ _ : κ, β)) (c : AList (fun _ : κ => β)),
      (runFrom (fun c e => if p e.2 then c.erase e.1 else c) c es).lookup k =
        if es.any (fun e => decide (e.1 = k) && p e.2) then none else c.lookup k
  | [], c => by simp
  | e :: es, c => by
    rw [runFrom_cons, lookup_runFrom_erase p k es]
    -- the step on `e` erases `k` exactly when `e` is `k`'s entry and fails the test
    have hstep : (if p e.2 then c.erase e.1 else c).lookup k =
        if decide (e.1 = k) && p e.2 then none else c.lookup k := by
      by_cases hk : e.1 = k
      · subst hk
        by_cases hp : p e.2 <;> simp [hp, AList.lookup_erase]
      · by_cases hp : p e.2 <;> simp [hp, hk, AList.lookup_erase_ne (Ne.symm hk)]
    rw [hstep, List.any_cons]
    by_cases hrest : es.any (fun e => decide (e.1 = k) && p e.2) = true <;> simp [hrest]

/-- **The snapshot loop** erases exactly the values that satisfy the test. -/
theorem lookup_eraseWhere (p : β → Bool) (s : AList (fun _ : κ => β)) (k : κ) :
    (eraseWhere p s).lookup k = (s.lookup k).filter fun v => !p v := by
  rw [eraseWhere, lookup_runFrom_erase]
  -- the only entry of `k` is the one `lookup` finds
  have hany : (s.entries.any fun e => decide (e.1 = k) && p e.2) =
      ((s.lookup k).map p).getD false := by
    cases hk : s.lookup k with
    | none =>
      have hnot : ∀ e ∈ s.entries, e.1 ≠ k := fun e he hek =>
        by rw [← hek, AList.mem_lookup_iff.mpr he] at hk; cases hk
      simp only [Option.map_none, Option.getD_none, List.any_eq_false, Bool.and_eq_true,
        decide_eq_true_eq, not_and]
      exact fun e he hek => absurd hek (hnot e he)
    | some v =>
      have hv : (⟨k, v⟩ : Σ _ : κ, β) ∈ s.entries := AList.mem_lookup_iff.mp hk
      have hsame : ∀ e ∈ s.entries, e.1 = k → e.2 = v := fun e he hek => by
        have he' := AList.mem_lookup_iff.mpr he
        rw [hek, hk] at he'
        exact (Option.some_inj.mp he').symm
      simp only [Option.map_some, Option.getD_some]
      cases hpv : p v
      · simp only [List.any_eq_false, Bool.and_eq_true, decide_eq_true_eq, not_and]
        intro e he hek
        rw [hsame e he hek, hpv]
        exact Bool.false_ne_true
      · exact List.any_eq_true.mpr ⟨⟨k, v⟩, hv, by simp [hpv]⟩
  rw [hany]
  cases hk : s.lookup k with
  | none => simp
  | some v => cases hpv : p v <;> simp [hpv, Option.filter_some]

end EraseWhere

/-! ### The cache -/

/-- `key`. -/
def key (identity kind : String) : String :=
  identity ++ "." ++ kind

/-- `PidCacheValue`: the concurrent map, from keys to PIDs. -/
structure PidCacheValue where
  cache : AList (fun _ : String => PID)

namespace PidCacheValue

/-- `NewPidCache`. -/
def new : PidCacheValue :=
  ⟨∅⟩

/-- `Get`. -/
def get (c : PidCacheValue) (identity kind : String) : Option PID :=
  c.cache.lookup (key identity kind)

/-- `Set`. -/
def set (c : PidCacheValue) (identity kind : String) (pid : PID) : PidCacheValue :=
  ⟨c.cache.insert (key identity kind) pid⟩

/-- `RemoveByValue`: `RemoveCb` removes the entry when it exists and `Equal`s the PID. -/
def removeByValue (c : PidCacheValue) (identity kind : String) (pid : PID) : PidCacheValue :=
  match c.cache.lookup (key identity kind) with
  | some existing => if existing = pid then ⟨c.cache.erase (key identity kind)⟩ else c
  | none => c

/-- `Remove`. -/
def remove (c : PidCacheValue) (identity kind : String) : PidCacheValue :=
  ⟨c.cache.erase (key identity kind)⟩

/-- `RemoveByMember`: over `IterBuffered`, remove each entry whose PID is at the member's
address. -/
def removeByMember (c : PidCacheValue) (member : Member) : PidCacheValue :=
  ⟨eraseWhere (fun pid => pid.address == member.address) c.cache⟩

end PidCacheValue

/-- An operation on the cache that changes it. -/
inductive PidCacheOp
  | set (identity kind : String) (pid : PID)
  | removeByValue (identity kind : String) (pid : PID)
  | remove (identity kind : String)
  | removeByMember (member : Member)

namespace PidCacheValue

/-- One operation. -/
def apply (c : PidCacheValue) : PidCacheOp → PidCacheValue
  | .set identity kind pid => c.set identity kind pid
  | .removeByValue identity kind pid => c.removeByValue identity kind pid
  | .remove identity kind => c.remove identity kind
  | .removeByMember member => c.removeByMember member

/-- The cache after the operations, from `NewPidCache`. -/
def run (ops : List PidCacheOp) : PidCacheValue :=
  runFrom apply new ops

end PidCacheValue

/-! ### The map the cache stands for -/

/-- The PIDs by identity and kind. -/
structure PidCacheSpec where
  pids : AList (fun _ : String × String => PID)

namespace PidCacheSpec

def get (a : PidCacheSpec) (identity kind : String) : Option PID :=
  a.pids.lookup (identity, kind)

def apply (a : PidCacheSpec) : PidCacheOp → PidCacheSpec
  | .set identity kind pid => ⟨a.pids.insert (identity, kind) pid⟩
  | .removeByValue identity kind pid =>
    if a.pids.lookup (identity, kind) = some pid then ⟨a.pids.erase (identity, kind)⟩ else a
  | .remove identity kind => ⟨a.pids.erase (identity, kind)⟩
  | .removeByMember member => ⟨eraseWhere (fun pid => pid.address == member.address) a.pids⟩

def run (ops : List PidCacheOp) : PidCacheSpec :=
  runFrom apply ⟨∅⟩ ops

end PidCacheSpec

/-! ### Identities without a dot -/

/-- Two lists that put one element `c` after parts without it split alike at it. -/
theorem append_cons_inj_of_not_mem {α : Type} {c : α} :
    ∀ {x₁ x₂ z₁ z₂ : List α}, c ∉ x₁ → c ∉ x₂ → x₁ ++ c :: z₁ = x₂ ++ c :: z₂ →
      x₁ = x₂ ∧ z₁ = z₂
  | [], [], _, _, _, _, h => ⟨rfl, (List.cons.inj h).2⟩
  | [], a :: _, _, _, _, h₂, h => absurd (List.mem_cons.mpr (.inl (List.cons.inj h).1)) h₂
  | a :: _, [], _, _, h₁, _, h => absurd (List.mem_cons.mpr (.inl (List.cons.inj h).1.symm)) h₁
  | a :: x₁, b :: x₂, _, _, h₁, h₂, h => by
    obtain ⟨hab, h⟩ := List.cons.inj h
    obtain ⟨hx, hz⟩ := append_cons_inj_of_not_mem (List.not_mem_of_not_mem_cons h₁)
      (List.not_mem_of_not_mem_cons h₂) h
    exact ⟨hab ▸ hx ▸ rfl, hz⟩

theorem key_inj {identity identity' kind kind' : String} (hi : '.' ∉ identity.toList)
    (hi' : '.' ∉ identity'.toList) :
    key identity kind = key identity' kind' ↔ identity = identity' ∧ kind = kind' := by
  constructor
  · intro h
    have hlist : identity.toList ++ '.' :: kind.toList = identity'.toList ++ '.' :: kind'.toList := by
      simpa [key, String.toList_append] using congrArg String.toList h
    obtain ⟨hid, hkind⟩ := append_cons_inj_of_not_mem hi hi' hlist
    exact ⟨String.toList_inj.mp hid, String.toList_inj.mp hkind⟩
  · rintro ⟨rfl, rfl⟩
    rfl

/-- The identity an operation names has no dot. -/
def PidCacheOp.DotFree : PidCacheOp → Prop
  | .set identity _ _ => '.' ∉ identity.toList
  | .removeByValue identity _ _ => '.' ∉ identity.toList
  | .remove identity _ => '.' ∉ identity.toList
  | .removeByMember _ => True

instance (op : PidCacheOp) : Decidable op.DotFree :=
  match op with
  | .set identity _ _ => inferInstanceAs (Decidable ('.' ∉ identity.toList))
  | .removeByValue identity _ _ => inferInstanceAs (Decidable ('.' ∉ identity.toList))
  | .remove identity _ => inferInstanceAs (Decidable ('.' ∉ identity.toList))
  | .removeByMember _ => inferInstanceAs (Decidable True)

/-- The cache answers as the map at every pair whose identity has no dot. -/
def Agrees (c : PidCacheValue) (a : PidCacheSpec) : Prop :=
  ∀ identity kind, '.' ∉ identity.toList → c.get identity kind = a.get identity kind

theorem get_set (c : PidCacheValue) {identity kind identity' kind' : String}
    (hi : '.' ∉ identity.toList) (hi' : '.' ∉ identity'.toList) (pid : PID) :
    (c.set identity kind pid).get identity' kind' =
      if (identity', kind') = (identity, kind) then some pid else c.get identity' kind' := by
  by_cases h : (identity', kind') = (identity, kind)
  · obtain ⟨rfl, rfl⟩ := Prod.mk.inj h
    simp [PidCacheValue.get, PidCacheValue.set]
  · have hkey : key identity' kind' ≠ key identity kind := fun hk =>
      h (Prod.ext_iff.mpr ((key_inj hi' hi).mp hk))
    simp [PidCacheValue.get, PidCacheValue.set, AList.lookup_insert_ne hkey, h]

theorem get_erase (c : PidCacheValue) {identity kind identity' kind' : String}
    (hi : '.' ∉ identity.toList) (hi' : '.' ∉ identity'.toList) :
    (⟨c.cache.erase (key identity kind)⟩ : PidCacheValue).get identity' kind' =
      if (identity', kind') = (identity, kind) then none else c.get identity' kind' := by
  by_cases h : (identity', kind') = (identity, kind)
  · obtain ⟨rfl, rfl⟩ := Prod.mk.inj h
    simp [PidCacheValue.get, AList.lookup_erase]
  · have hkey : key identity' kind' ≠ key identity kind := fun hk =>
      h (Prod.ext_iff.mpr ((key_inj hi' hi).mp hk))
    simp [PidCacheValue.get, AList.lookup_erase_ne hkey, h]

theorem PidCacheSpec.get_erase (a : PidCacheSpec) (identity kind identity' kind' : String) :
    (⟨a.pids.erase (identity, kind)⟩ : PidCacheSpec).get identity' kind' =
      if (identity', kind') = (identity, kind) then none else a.get identity' kind' := by
  by_cases h : (identity', kind') = (identity, kind)
  · obtain ⟨rfl, rfl⟩ := Prod.mk.inj h
    simp [PidCacheSpec.get, AList.lookup_erase]
  · simp [PidCacheSpec.get, h, AList.lookup_erase_ne h]

/-- **One operation** keeps the cache in agreement with the map. -/
theorem Agrees.apply {c : PidCacheValue} {a : PidCacheSpec} (h : Agrees c a) {op : PidCacheOp}
    (hop : op.DotFree) : Agrees (c.apply op) (a.apply op) := by
  intro identity' kind' hi'
  cases op with
  | set identity kind pid =>
    rw [PidCacheValue.apply, get_set c hop hi', h identity' kind' hi']
    by_cases hpair : (identity', kind') = (identity, kind)
    · obtain ⟨rfl, rfl⟩ := Prod.mk.inj hpair
      simp [PidCacheSpec.apply, PidCacheSpec.get]
    · simp [PidCacheSpec.apply, PidCacheSpec.get, hpair, AList.lookup_insert_ne hpair]
  | removeByValue identity kind pid =>
    -- both look the pair up, and its slot holds the same PID in both
    have hsame : c.cache.lookup (key identity kind) = a.pids.lookup (identity, kind) :=
      h identity kind hop
    simp only [PidCacheValue.apply, PidCacheValue.removeByValue, PidCacheSpec.apply, hsame]
    cases hl : a.pids.lookup (identity, kind) with
    | none => simp [h identity' kind' hi']
    | some existing =>
      by_cases hex : existing = pid
      · simp only [hex, if_true]
        rw [get_erase c hop hi', PidCacheSpec.get_erase, h identity' kind' hi']
      · simp [hex, h identity' kind' hi']
  | remove identity kind =>
    rw [PidCacheValue.apply, PidCacheValue.remove, get_erase c hop hi', PidCacheSpec.apply,
      PidCacheSpec.get_erase, h identity' kind' hi']
  | removeByMember member =>
    simp only [PidCacheValue.apply, PidCacheValue.removeByMember, PidCacheSpec.apply,
      PidCacheValue.get, PidCacheSpec.get, lookup_eraseWhere]
    rw [← PidCacheValue.get, ← PidCacheSpec.get, h identity' kind' hi']

/-- **The cache refines the map** on identities without a dot: after any sequence of operations
whose identities have none, `Get` of such an identity answers as the map keyed by pairs. -/
theorem get_run_of_dotFree (ops : List PidCacheOp) (hops : ∀ op ∈ ops, op.DotFree)
    {identity : String} (hi : '.' ∉ identity.toList) (kind : String) :
    (PidCacheValue.run ops).get identity kind = (PidCacheSpec.run ops).get identity kind := by
  have hrun : ∀ (ops : List PidCacheOp) (c : PidCacheValue) (a : PidCacheSpec),
      (∀ op ∈ ops, op.DotFree) → Agrees c a →
        Agrees (runFrom PidCacheValue.apply c ops) (runFrom PidCacheSpec.apply a ops) := by
    intro ops
    induction ops with
    | nil => exact fun _ _ _ h => h
    | cons op ops ih =>
      intro c a hops h
      exact ih _ _ (fun op' hop' => hops op' (List.mem_cons_of_mem _ hop'))
        (h.apply (hops op List.mem_cons_self))
  have hnew : Agrees PidCacheValue.new ⟨∅⟩ := by
    intro identity kind _
    simp [PidCacheValue.get, PidCacheValue.new, PidCacheSpec.get]
  exact hrun ops _ _ hops hnew identity kind hi

/-- The grain `user` of kind `profile` is cached, and the grain `admin` of the same kind is
removed. -/
def cacheUserGrain : List PidCacheOp :=
  [.set "user" "profile" ⟨"10.0.0.1:8090", "partition-activator/user", 0⟩,
    .remove "admin" "profile"]

theorem get_run_of_dotFree_cacheUserGrain :
    (∀ op ∈ cacheUserGrain, op.DotFree) ∧ '.' ∉ "user".toList ∧
      (PidCacheValue.run cacheUserGrain).get "user" "profile" =
        (PidCacheSpec.run cacheUserGrain).get "user" "profile" := by
  have hops : ∀ op ∈ cacheUserGrain, op.DotFree := by decide
  have hi : '.' ∉ "user".toList := by decide
  exact ⟨hops, hi, get_run_of_dotFree cacheUserGrain hops hi "profile"⟩

/-! ### A dot in an identity -/

/-- The activation of the grain `user.42` of kind `profile`. -/
def profilePid : PID :=
  ⟨"10.0.0.1:8090", "partition-activator/user.42", 0⟩

/-- The grain `user.42` of kind `profile` is cached. -/
def cacheDottedGrain : List PidCacheOp :=
  [.set "user.42" "profile" profilePid]

/-- Then the grain `user` of kind `42.profile` is removed. -/
def removeOtherGrain : List PidCacheOp :=
  cacheDottedGrain ++ [.remove "user" "42.profile"]

theorem dotted_identity_shares_slot :
    (PidCacheValue.run cacheDottedGrain).get "user" "42.profile" = some profilePid ∧
      (PidCacheSpec.run cacheDottedGrain).get "user" "42.profile" = none ∧
      (PidCacheValue.run removeOtherGrain).get "user.42" "profile" = none ∧
      (PidCacheSpec.run removeOtherGrain).get "user.42" "profile" = some profilePid := by
  decide

end ProtoActor.Cluster
