import ProtoActor.Actor.Pid
import ProtoActor.Collections.Sharded
import ProtoActor.Transition.Run

/-!
# The process registry and the resolution of PIDs

`actor/process_registry.go` and `actor/pid.go`.  The registry keeps the local processes by id in
the 1024 concurrent maps of a `SliceMap`, the map of an id being picked by `murmur32.Sum32` of
it, and resolves the PIDs of other addresses through its remote handlers.  `Add` inserts a
process under a free id only (`SetIfAbsent`), `Remove` pops the process of an id and marks an
`*ActorProcess` dead, `Get` resolves a PID and `GetLocal` an id.  `Sum32` is a parameter: nothing
below depends on the bucket an id lands in.

* `registry_refines_table`: whatever the hash, every sequence of `Add`, `Remove` and `GetLocal`
  answers as it does on one table from ids to processes, which `Add` fills at a free id and
  `Remove` clears (`tableCall`).  The buckets are invisible (`Sharded.get_setBucket`).

A PID caches in its `p` field the process `ref` last resolved it to, and `ref` trusts the cache
unless it holds an actor process marked dead.  A `Resolver` is the actor system as PIDs see it:
the registry, the dead flags, the processes a `Remove` has popped and not yet marked dead, the
PID objects with their caches, and the `ref` calls that have resolved a process and not yet
stored it.  Each goroutine's step is atomic, and the steps interleave in any order
(`Resolver.Reachable`); `Remove` is two of them, the `Pop` and the store of the `dead` flag.

* `ref_agrees_with_get`: in every reachable state, `ref` on a local PID returns what `Get`
  returns, except when the PID caches a process that is no longer the one registered under its
  id and is not an actor process, or is an actor process between the `Pop` of its `Remove` and
  the store of its `dead` flag.  A process with no `dead` flag (a future, a router) is resolved
  to by a PID that cached it after its `Remove`, also once another process holds the id.  A
  cached actor process is registered under the PID's id, popped by a `Remove` in progress, or
  marked dead (`CachesSound`), and a dead one is never returned.
-/

namespace ProtoActor.Actor

open Collections Transition

/-- `localAddress`, the address of a system that runs no remote. -/
def localAddress : String :=
  "nonhost"

/-- The fields of `ProcessRegistryValue` that hold processes (its `SequenceID` is the
`ProcessRegistryValue` of the process ids): the system's `Address`, the local processes by id in
the 1024 buckets of `LocalPIDs`, and the `RemoteHandlers`. -/
structure ProcessRegistry (π : Type) where
  address : String
  localPIDs : Sharded String π 1024
  remoteHandlers : List (PID → Option π)

namespace ProcessRegistry

variable {π : Type} (sum32 : String → UInt32)

/-- `SliceMap.GetBucket`: `int(hash) % len(s.LocalPIDs)` for `hash = murmur32.Sum32(key)`.  The
model takes Go's `int` to be 64 bits wide, so that `int(hash)` is the hash itself and the index
is in range; on a 32-bit platform a hash of 2^31 or more becomes negative and the index panics. -/
def getBucket (key : String) : Fin 1024 :=
  ⟨(sum32 key).toNat % 1024, Nat.mod_lt _ (by decide)⟩

/-- `NewProcessRegistry`. -/
def newProcessRegistry : ProcessRegistry π :=
  ⟨localAddress, Sharded.empty, []⟩

/-- `RegisterAddressResolver`. -/
def registerAddressResolver (pr : ProcessRegistry π) (handler : PID → Option π) :
    ProcessRegistry π :=
  { pr with remoteHandlers := pr.remoteHandlers ++ [handler] }

/-- `Add`: the PID of `id` at the registry's address, and whether `id` was free. -/
def add (pr : ProcessRegistry π) (process : π) (id : String) : (PID × Bool) × ProcessRegistry π :=
  let r := pr.localPIDs.setIfAbsent (getBucket sum32) id process
  ((⟨pr.address, id, 0⟩, r.2), { pr with localPIDs := r.1 })

/-- `Remove`: pop the process of the PID's id; marking an actor process dead is the caller's. -/
def remove (pr : ProcessRegistry π) (pid : PID) : Option π × ProcessRegistry π :=
  let r := pr.localPIDs.pop (getBucket sum32) pid.id
  (r.1, { pr with localPIDs := r.2 })

/-- `GetLocal`; `none` is `(DeadLetter, false)`. -/
def getLocal (pr : ProcessRegistry π) (id : String) : Option π :=
  pr.localPIDs.get (getBucket sum32) id

/-- Whether `Get` resolves the PID through the remote handlers. -/
def isRemote (pr : ProcessRegistry π) (pid : PID) : Bool :=
  pid.address ≠ localAddress && pid.address ≠ pr.address

/-- `Get`: a PID of another address by the first remote handler that resolves it, a local one
by its id; `none` is `(DeadLetter, false)`. -/
def get (pr : ProcessRegistry π) (pid : PID) : Option π :=
  if pr.isRemote pid then pr.remoteHandlers.findSome? (fun handler => handler pid)
  else pr.getLocal sum32 pid.id

theorem getLocal_add (pr : ProcessRegistry π) (process : π) (id k : String) :
    (pr.add sum32 process id).2.getLocal sum32 k =
      if k = id ∧ pr.getLocal sum32 id = none then some process else pr.getLocal sum32 k :=
  Sharded.get_setIfAbsent _ _ _ _ _

theorem add_absent (pr : ProcessRegistry π) (process : π) (id : String) :
    (pr.add sum32 process id).1.2 = (pr.getLocal sum32 id).isNone :=
  Sharded.setIfAbsent_snd _ _ _ _

theorem remove_fst (pr : ProcessRegistry π) (pid : PID) :
    (pr.remove sum32 pid).1 = pr.getLocal sum32 pid.id := rfl

theorem getLocal_remove (pr : ProcessRegistry π) (pid : PID) (k : String) :
    (pr.remove sum32 pid).2.getLocal sum32 k =
      if k = pid.id then none else pr.getLocal sum32 k :=
  Sharded.get_pop _ _ _ _

/-- `Add` never replaces a process. -/
theorem getLocal_add_of_eq_some {pr : ProcessRegistry π} {k : String} {p : π}
    (h : pr.getLocal sum32 k = some p) (process : π) (id : String) :
    (pr.add sum32 process id).2.getLocal sum32 k = some p := by
  rw [getLocal_add]
  split
  · rename_i hk
    obtain ⟨rfl, hnone⟩ := hk
    rw [h] at hnone
    cases hnone
  · exact h

theorem get_of_isRemote_false {pr : ProcessRegistry π} {pid : PID} (h : pr.isRemote pid = false) :
    pr.get sum32 pid = pr.getLocal sum32 pid.id := by
  simp [get, h]

end ProcessRegistry

/-! ### The registry answers as one table -/

/-- A call on the local processes of the registry. -/
inductive RegistryCall (π : Type)
  | add (process : π) (id : String)
  | remove (pid : PID)
  | getLocal (id : String)

/-- What a call returns: the PID `Add` makes and whether the id was free, the process `Remove`
popped, the process `GetLocal` found. -/
inductive RegistryAnswer (π : Type)
  | added (pid : PID) (absent : Bool)
  | removed (process : Option π)
  | found (process : Option π)

variable {π : Type}

/-- A call on the registry. -/
def ProcessRegistry.call (sum32 : String → UInt32) (pr : ProcessRegistry π) :
    RegistryCall π → RegistryAnswer π × ProcessRegistry π
  | .add process id =>
    let r := pr.add sum32 process id
    (.added r.1.1 r.1.2, r.2)
  | .remove pid =>
    let r := pr.remove sum32 pid
    (.removed r.1, r.2)
  | .getLocal id => (.found (pr.getLocal sum32 id), pr)

/-- What the registry is for: one table from ids to processes, which `Add` fills at a free id
and `Remove` clears, at the registry's address. -/
def tableCall (address : String) (t : String → Option π) :
    RegistryCall π → RegistryAnswer π × (String → Option π)
  | .add process id =>
    (.added ⟨address, id, 0⟩ (t id).isNone,
      if (t id).isNone then Function.update t id (some process) else t)
  | .remove pid => (.removed (t pid.id), Function.update t pid.id none)
  | .getLocal id => (.found (t id), t)

/-- One call keeps the registry and the table in step. -/
theorem call_simulates (sum32 : String → UInt32) (pr : ProcessRegistry π) (t : String → Option π)
    (h : pr.getLocal sum32 = t) (c : RegistryCall π) :
    (pr.call sum32 c).1 = (tableCall pr.address t c).1 ∧
      (pr.call sum32 c).2.address = pr.address ∧
      (pr.call sum32 c).2.getLocal sum32 = (tableCall pr.address t c).2 := by
  subst h
  cases c with
  | add process id =>
    refine ⟨?_, rfl, ?_⟩
    · show RegistryAnswer.added ⟨pr.address, id, 0⟩ (pr.add sum32 process id).1.2 = _
      rw [ProcessRegistry.add_absent]
      rfl
    funext k
    simp only [ProcessRegistry.call, tableCall, ProcessRegistry.getLocal_add]
    cases hget : pr.getLocal sum32 id with
    | none =>
      -- a free id: the table gets the process there
      by_cases hk : k = id
      · subst hk
        simp
      · simp [hk]
    | some v => simp
  | remove pid =>
    refine ⟨rfl, rfl, ?_⟩
    funext k
    simp only [ProcessRegistry.call, tableCall, ProcessRegistry.getLocal_remove]
    by_cases hk : k = pid.id
    · subst hk
      simp
    · simp [hk]
  | getLocal id => exact ⟨rfl, rfl, rfl⟩

/-- **The buckets are invisible.** Whatever `Sum32` does, every sequence of `Add`, `Remove` and
`GetLocal` calls on the registry returns what it returns on one table from ids to processes that
starts as the registry's local processes. -/
theorem registry_refines_table (sum32 : String → UInt32) (pr : ProcessRegistry π)
    (calls : List (RegistryCall π)) :
    outputs (ProcessRegistry.call sum32) pr calls =
      outputs (tableCall pr.address) (pr.getLocal sum32) calls := by
  refine (outputs_eq_of_simulation
    (fun (pr' : ProcessRegistry π) t => pr'.address = pr.address ∧ pr'.getLocal sum32 = t)
    (fun pr' t c h => ?_) calls ⟨rfl, rfl⟩).1
  obtain ⟨hanswer, haddr, htable⟩ := call_simulates sum32 pr' t h.2 c
  rw [h.1] at hanswer htable
  exact ⟨hanswer, haddr.trans h.1, htable⟩

/-! ### Resolving PIDs -/

/-- A process, by its allocation, and whether it is an `*ActorProcess`: the one implementation of
`Process` with a `dead` flag. -/
structure Proc where
  ref : ℕ
  isActor : Bool
  deriving DecidableEq, Repr

/-- The actor system as PIDs resolve through it: the registry, the allocations of the actor
processes whose `dead` flag is set, the processes popped by the `Remove` calls that have not yet
stored the flag, the PID objects, the process each one's `p` field caches, and the `ref` calls
that have found a process for a PID object and not yet stored it. -/
structure Resolver where
  registry : ProcessRegistry Proc
  dead : List ℕ
  removing : List Proc
  pids : List PID
  cache : ℕ → Option Proc
  storing : List (ℕ × Proc)

/-- One atomic step of some goroutine. -/
inductive ResolverEvent
  /-- `Add` of a process: a spawn, a future, a router. -/
  | add (process : Proc) (id : String)
  /-- `Remove`'s `Pop` of the PID's id. -/
  | remove (pid : PID)
  /-- The `k`-th pending `Remove` marks the process it popped dead, if it is an actor process. -/
  | removeStore (k : ℕ)
  /-- `ActorProcess.Stop`, which marks the process dead before the stop message. -/
  | stop (process : Proc)
  /-- A new PID object, its cache empty: `NewPID`, `Add`'s result, a decoded message. -/
  | newPid (pid : PID)
  /-- `ref` on the PID object `i`, up to the store of what `Get` found. -/
  | refStart (i : ℕ)
  /-- The store of the `k`-th pending `ref`. -/
  | refStore (k : ℕ)

namespace Resolver

variable (sum32 : String → UInt32)

/-- Whether `ref` keeps a cached process: all but an actor process with `dead == 1`. -/
def usable (s : Resolver) (p : Proc) : Bool :=
  !(p.isActor && s.dead.contains p.ref)

/-- What `ref` returns for a PID object with the cache `cache`: the cached process if usable,
else what `Get` returns. -/
def resolve (s : Resolver) (pid : PID) (cache : Option Proc) : Option Proc :=
  match cache with
  | some p => if s.usable p then some p else s.registry.get sum32 pid
  | none => s.registry.get sum32 pid

/-- The dead flags after `atomic.StoreInt32(&l.dead, 1)` on the process, if it is an actor
process. -/
def markDead (dead : List ℕ) (p : Proc) : List ℕ :=
  if p.isActor then p.ref :: dead else dead

/-- `Get` for the PID object `i`; a process it finds is to be stored. -/
def getThenStore (s : Resolver) (i : ℕ) (pid : PID) : Resolver :=
  match s.registry.get sum32 pid with
  | some q => { s with storing := s.storing ++ [(i, q)] }
  | none => s

/-- One step. -/
def step (s : Resolver) : ResolverEvent → Resolver
  | .add process id => { s with registry := (s.registry.add sum32 process id).2 }
  | .remove pid =>
    let r := s.registry.remove sum32 pid
    { s with registry := r.2, removing := s.removing ++ r.1.toList }
  | .removeStore k =>
    match s.removing[k]? with
    | none => s
    | some p => { s with dead := markDead s.dead p, removing := s.removing.eraseIdx k }
  | .stop process => { s with dead := markDead s.dead process }
  | .newPid pid =>
    { s with pids := s.pids ++ [pid], cache := Function.update s.cache s.pids.length none }
  | .refStart i =>
    match s.pids[i]? with
    | none => s
    | some pid =>
      match s.cache i with
      | some p =>
        if s.usable p then s
        -- a dead actor process: `atomic.StorePointer(&pid.p, nil)`, then `Get`
        else ({ s with cache := Function.update s.cache i none } : Resolver).getThenStore sum32 i pid
      | none => s.getThenStore sum32 i pid
  | .refStore k =>
    match s.storing[k]? with
    | none => s
    | some (i, q) =>
      { s with cache := Function.update s.cache i (some q), storing := s.storing.eraseIdx k }

/-- The states reached, in any interleaving, from one where no PID object exists yet and no call
is under way. -/
def Reachable (s : Resolver) : Prop :=
  Transition.Reachable (fun s => s.removing = [] ∧ s.pids = [] ∧ s.storing = [])
    (fun s s' => ∃ e, s' = s.step sum32 e) s

/-- Whether an actor process is marked dead or popped by a `Remove` that will mark it. -/
def Gone (s : Resolver) (p : Proc) : Prop :=
  p.ref ∈ s.dead ∨ p ∈ s.removing

/-- What a PID's cache, or a pending store for it, may hold: the process registered under its id,
or, if it is an actor process, one that is gone. -/
def Sound (s : Resolver) (pid : PID) (p : Proc) : Prop :=
  s.registry.getLocal sum32 pid.id = some p ∨ (p.isActor = true → s.Gone p)

/-- The invariant of the caches: what each local PID object caches, and what each pending store
will put there, is sound, and pending stores are for PID objects that exist. -/
structure CachesSound (s : Resolver) : Prop where
  caches : ∀ i pid p, s.pids[i]? = some pid → s.registry.isRemote pid = false →
    s.cache i = some p → s.Sound sum32 pid p
  stores : ∀ i q, (i, q) ∈ s.storing → ∀ pid, s.pids[i]? = some pid →
    s.registry.isRemote pid = false → s.Sound sum32 pid q
  stores_lt : ∀ i q, (i, q) ∈ s.storing → i < s.pids.length

variable {sum32}

/-- A sound process stays sound when the step keeps it sound while registered, and keeps it
gone. -/
theorem Sound.mono {s s' : Resolver} {pid : PID} {p : Proc} (h : s.Sound sum32 pid p)
    (hreg : s.registry.getLocal sum32 pid.id = some p → s'.Sound sum32 pid p)
    (hgone : p.isActor = true → s.Gone p → s'.Gone p) : s'.Sound sum32 pid p := by
  rcases h with h | h
  · exact hreg h
  · exact .inr fun ha => hgone ha (h ha)

theorem mem_markDead {dead : List ℕ} {r : ℕ} (p : Proc) (h : r ∈ dead) : r ∈ markDead dead p := by
  unfold markDead
  split
  · exact List.mem_cons_of_mem _ h
  · exact h

/-- The store of a pending `Remove` keeps every actor process gone: the one it popped is now
marked dead. -/
theorem Gone.removeStore {s : Resolver} {k : ℕ} {q p : Proc} (hq : s.removing[k]? = some q)
    (ha : p.isActor = true) (h : s.Gone p) :
    ({ s with dead := markDead s.dead q, removing := s.removing.eraseIdx k } : Resolver).Gone p := by
  rcases h with hd | hr
  · exact .inl (mem_markDead q hd)
  · obtain ⟨i, hi⟩ := List.mem_iff_getElem?.mp hr
    by_cases hik : i = k
    · -- the process popped by this very `Remove`
      subst hik
      rw [hq, Option.some.injEq] at hi
      subst hi
      exact .inl (by simp [markDead, ha])
    · exact .inr (List.mem_eraseIdx_iff_getElem?.mpr ⟨i, hik, hi⟩)

/-- A step that changes only the registry and the dead flags, keeping every sound process
sound, keeps the invariant. -/
theorem CachesSound.of_sound {s s' : Resolver} (h : s.CachesSound sum32)
    (haddr : s'.registry.address = s.registry.address) (hpids : s'.pids = s.pids)
    (hcache : s'.cache = s.cache) (hstoring : s'.storing = s.storing)
    (hsound : ∀ pid p, s.Sound sum32 pid p → s'.Sound sum32 pid p) : s'.CachesSound sum32 := by
  have hremote : ∀ pid, s'.registry.isRemote pid = s.registry.isRemote pid := by
    intro pid
    simp [ProcessRegistry.isRemote, haddr]
  refine ⟨fun i pid p hi hl hc => ?_, fun i q hq pid hi hl => ?_, fun i q hq => ?_⟩
  · rw [hpids] at hi
    rw [hremote] at hl
    rw [hcache] at hc
    exact hsound _ _ (h.caches i pid p hi hl hc)
  · rw [hstoring] at hq
    rw [hpids] at hi
    rw [hremote] at hl
    exact hsound _ _ (h.stores i q hq pid hi hl)
  · rw [hstoring] at hq
    rw [hpids]
    exact h.stores_lt i q hq

/-- `Get` for an existing PID object, with its store to come. -/
theorem cachesSound_getThenStore {s : Resolver} (h : s.CachesSound sum32) {i : ℕ} {pid : PID}
    (hi : s.pids[i]? = some pid) : (s.getThenStore sum32 i pid).CachesSound sum32 := by
  unfold Resolver.getThenStore
  split
  · rename_i q hq
    refine ⟨h.caches, fun j q' hq' pid' hj hl => ?_, fun j q' hq' => ?_⟩
    · rcases List.mem_append.mp hq' with hq' | hq'
      · exact h.stores j q' hq' pid' hj hl
      · -- the new store: what `Get` found for this very PID object
        obtain ⟨rfl, rfl⟩ := Prod.mk.inj (List.mem_singleton.mp hq')
        rw [hi] at hj
        cases hj
        exact .inl (by rwa [ProcessRegistry.get_of_isRemote_false sum32 hl] at hq)
    · rcases List.mem_append.mp hq' with hq' | hq'
      · exact h.stores_lt j q' hq'
      · obtain ⟨rfl, -⟩ := Prod.mk.inj (List.mem_singleton.mp hq')
        exact (List.getElem?_eq_some_iff.mp hi).1
  · exact h

/-- Emptying the cache of a PID object. -/
theorem cachesSound_clear {s : Resolver} (h : s.CachesSound sum32) (i : ℕ) :
    ({ s with cache := Function.update s.cache i none } : Resolver).CachesSound sum32 := by
  refine ⟨fun j pid p hj hl hc => ?_, h.stores, h.stores_lt⟩
  by_cases hji : j = i
  · subst hji
    simp at hc
  · change Function.update s.cache i none j = some p at hc
    rw [Function.update_of_ne hji] at hc
    exact h.caches j pid p hj hl hc

/-- **Every step keeps the caches sound.** -/
theorem cachesSound_step {s : Resolver} (h : s.CachesSound sum32) (e : ResolverEvent) :
    (s.step sum32 e).CachesSound sum32 := by
  cases e with
  | add process id =>
    -- `SetIfAbsent` replaces no process
    refine h.of_sound rfl rfl rfl rfl fun pid p hp => hp.mono (fun hreg => .inl ?_) (fun _ hr => hr)
    exact ProcessRegistry.getLocal_add_of_eq_some sum32 hreg process id
  | remove pid' =>
    -- the popped process awaits the store of its `dead` flag
    refine h.of_sound rfl rfl rfl rfl fun pid p hp => hp.mono (fun hreg => ?_) (fun _ hg => ?_)
    · by_cases hid : pid.id = pid'.id
      · refine .inr fun _ => .inr ?_
        have hpop : (s.registry.remove sum32 pid').1 = some p := by
          rw [ProcessRegistry.remove_fst, ← hid, hreg]
        simp [step, hpop]
      · exact .inl (by rw [step, ProcessRegistry.getLocal_remove, if_neg hid, hreg])
    · rcases hg with hd | hr
      · exact .inl hd
      · exact .inr (List.mem_append_left _ hr)
  | removeStore k =>
    simp only [step]
    split
    · exact h
    · rename_i q hq
      exact h.of_sound rfl rfl rfl rfl fun pid p hp =>
        hp.mono (fun hreg => .inl hreg) fun ha hg => Gone.removeStore hq ha hg
  | stop process =>
    exact h.of_sound rfl rfl rfl rfl fun pid p hp =>
      hp.mono (fun hreg => .inl hreg) (fun _ hg => hg.imp (mem_markDead _) id)
  | newPid pid =>
    refine ⟨fun i pid' p hi hl hc => ?_, fun i q hq pid' hi hl => ?_, fun i q hq => ?_⟩
    · simp only [step] at hi hc
      by_cases hlt : i < s.pids.length
      · rw [List.getElem?_append_left hlt] at hi
        rw [Function.update_of_ne (Nat.ne_of_lt hlt)] at hc
        exact h.caches i pid' p hi hl hc
      · -- the new PID object caches nothing
        have hlen := (List.getElem?_eq_some_iff.mp hi).1
        simp only [List.length_append, List.length_singleton] at hlen
        have hin : i = s.pids.length := by omega
        subst hin
        simp at hc
    · have hlt := h.stores_lt i q hq
      simp only [step] at hi
      rw [List.getElem?_append_left hlt] at hi
      exact h.stores i q hq pid' hi hl
    · have hlt := h.stores_lt i q hq
      simp only [step, List.length_append, List.length_singleton]
      omega
  | refStart i =>
    simp only [step]
    split
    · exact h
    · rename_i pid hi
      split
      · rename_i p hp
        split
        · exact h
        · exact cachesSound_getThenStore (cachesSound_clear h i) hi
      · exact cachesSound_getThenStore h hi
  | refStore k =>
    simp only [step]
    split
    · exact h
    · rename_i i q hk
      have hmem : (i, q) ∈ s.storing := List.mem_of_getElem? hk
      refine ⟨fun j pid p hj hl hc => ?_, fun j q' hq' pid hj hl => ?_, fun j q' hq' => ?_⟩
      · by_cases hji : j = i
        · -- the stored process is the one the pending `ref` found
          subst hji
          simp only [Function.update_self, Option.some.injEq] at hc
          subst hc
          exact h.stores j q hmem pid hj hl
        · change Function.update s.cache i (some q) j = some p at hc
          rw [Function.update_of_ne hji] at hc
          exact h.caches j pid p hj hl hc
      · exact h.stores j q' (List.mem_of_mem_eraseIdx hq') pid hj hl
      · exact h.stores_lt j q' (List.mem_of_mem_eraseIdx hq')

theorem cachesSound_of_reachable {s : Resolver} (hs : s.Reachable sum32) : s.CachesSound sum32 := by
  refine Transition.reachable_induction (fun s h0 => ?_) (fun s s' h hstep => ?_) s hs
  · refine ⟨fun i pid p hi => ?_, fun i q hq => ?_, fun i q hq => ?_⟩ <;> simp_all
  · obtain ⟨e, rfl⟩ := hstep
    exact cachesSound_step h e

/-- What the invariant says of `ref`: it returns what `Get` returns, or a cached process that is
no longer registered under the PID's id and is not an actor process, or one a `Remove` has
popped and not yet marked dead. -/
theorem CachesSound.resolve_eq {s : Resolver} (h : s.CachesSound sum32) {i : ℕ} {pid : PID}
    (hi : s.pids[i]? = some pid) (hlocal : s.registry.isRemote pid = false) :
    s.resolve sum32 pid (s.cache i) = s.registry.get sum32 pid ∨
      ∃ p, s.cache i = some p ∧ (p.isActor = false ∨ p ∈ s.removing) ∧
        s.registry.get sum32 pid ≠ some p ∧ s.resolve sum32 pid (s.cache i) = some p := by
  cases hc : s.cache i with
  | none => exact .inl rfl
  | some p =>
    by_cases hu : s.usable p
    · have hres : s.resolve sum32 pid (some p) = some p := by simp [resolve, hu]
      rw [hres]
      by_cases hget : s.registry.get sum32 pid = some p
      · exact .inl hget.symm
      · -- the cached process is usable and not registered: the invariant leaves one case
        refine .inr ⟨p, rfl, ?_, hget, rfl⟩
        rcases h.caches i pid p hi hlocal hc with hreg | hgone
        · rw [ProcessRegistry.get_of_isRemote_false sum32 hlocal] at hget
          exact absurd hreg hget
        · cases ha : p.isActor
          · exact .inl rfl
          · -- a usable actor process is not marked dead, so its `Remove` is under way
            rcases hgone ha with hdead | hremoving
            · simp [usable, ha, hdead] at hu
            · exact .inr hremoving
    · exact .inl (by simp [resolve, hu])

/-- **`ref` agrees with `Get`, but for removed processes it still trusts.** In every state the
goroutines reach, in any interleaving, `ref` on a local PID object returns what `Get` returns,
unless the object caches a process that is no longer registered under the PID's id and either
is not an actor process, so has no `dead` flag, or is an actor process popped by a `Remove`
that has not yet stored its flag; `ref` then returns that process.  An actor process that `ref`
returns is the one registered under the PID's id or one being removed. -/
theorem ref_agrees_with_get (s : Resolver) (hs : s.Reachable sum32) (i : ℕ) (pid : PID)
    (hi : s.pids[i]? = some pid) (hlocal : s.registry.isRemote pid = false) :
    (s.resolve sum32 pid (s.cache i) = s.registry.get sum32 pid ∨
      ∃ p, s.cache i = some p ∧ (p.isActor = false ∨ p ∈ s.removing) ∧
        s.registry.get sum32 pid ≠ some p ∧ s.resolve sum32 pid (s.cache i) = some p) ∧
      ∀ p, s.resolve sum32 pid (s.cache i) = some p → p.isActor = true →
        s.registry.getLocal sum32 pid.id = some p ∨ p ∈ s.removing := by
  have hres := (cachesSound_of_reachable hs).resolve_eq hi hlocal
  refine ⟨hres, fun p hp ha => ?_⟩
  rcases hres with hget | ⟨p', -, hstale, -, hp'⟩
  · exact .inl (by rw [← ProcessRegistry.get_of_isRemote_false sum32 hlocal, ← hget, hp])
  · -- the stale case holds a process with no `dead` flag or one being removed
    rw [hp] at hp'
    cases hp'
    rcases hstale with ha' | hremoving
    · rw [ha] at ha'
      cases ha'
    · exact .inr hremoving

/-- An actor registered as `a` and resolved through a PID, then popped by a `Remove` that has not
yet marked it dead. -/
def actorBeingRemoved : Resolver :=
  runFrom (step fun _ => 0) ⟨ProcessRegistry.newProcessRegistry, [], [], [], fun _ => none, []⟩
    [.add ⟨1, true⟩ "a", .newPid ⟨"nonhost", "a", 0⟩, .refStart 0, .refStore 0,
      .remove ⟨"nonhost", "a", 0⟩]

/-- The PID still resolves to the actor process, which `Get` no longer knows and whose `dead`
flag is not set. -/
theorem ref_agrees_with_get_actorBeingRemoved :
    actorBeingRemoved.Reachable (fun _ => 0) ∧
      actorBeingRemoved.pids[0]? = some ⟨"nonhost", "a", 0⟩ ∧
      actorBeingRemoved.registry.isRemote ⟨"nonhost", "a", 0⟩ = false ∧
      ((actorBeingRemoved.resolve (fun _ => 0) ⟨"nonhost", "a", 0⟩ (actorBeingRemoved.cache 0) =
          actorBeingRemoved.registry.get (fun _ => 0) ⟨"nonhost", "a", 0⟩ ∨
        ∃ p, actorBeingRemoved.cache 0 = some p ∧
          (p.isActor = false ∨ p ∈ actorBeingRemoved.removing) ∧
          actorBeingRemoved.registry.get (fun _ => 0) ⟨"nonhost", "a", 0⟩ ≠ some p ∧
          actorBeingRemoved.resolve (fun _ => 0) ⟨"nonhost", "a", 0⟩
            (actorBeingRemoved.cache 0) = some p) ∧
        ∀ p, actorBeingRemoved.resolve (fun _ => 0) ⟨"nonhost", "a", 0⟩
            (actorBeingRemoved.cache 0) = some p → p.isActor = true →
          actorBeingRemoved.registry.getLocal (fun _ => 0) "a" = some p ∨
            p ∈ actorBeingRemoved.removing) ∧
      actorBeingRemoved.resolve (fun _ => 0) ⟨"nonhost", "a", 0⟩ (actorBeingRemoved.cache 0) =
        some ⟨1, true⟩ ∧
      actorBeingRemoved.registry.get (fun _ => 0) ⟨"nonhost", "a", 0⟩ = none :=
  have hs : actorBeingRemoved.Reachable (fun _ => 0) :=
    Transition.Reachable.runFrom (fun _ e => ⟨e, rfl⟩)
      (Transition.Reachable.of_init ⟨rfl, rfl, rfl⟩) _
  have hi : actorBeingRemoved.pids[0]? = some ⟨"nonhost", "a", 0⟩ := by decide
  have hl : actorBeingRemoved.registry.isRemote ⟨"nonhost", "a", 0⟩ = false := by decide
  ⟨hs, hi, hl, ref_agrees_with_get actorBeingRemoved hs 0 _ hi hl, by decide, by decide⟩

end Resolver

end ProtoActor.Actor
