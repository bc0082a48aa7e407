import ProtoActor.Actor.ProcessRegistry
import ProtoActor.Actor.Registry
import ProtoActor.Collections.Separator

/-!
# Naming spawned processes

`actor/root_context.go`, `actor/actor_context.go`, `actor/props.go`, `actor/future.go` and
`actor/guardian.go`.  Every local process is registered under an id, and `Add` refuses an id
that is taken.  `SpawnNamed` takes the caller's name: the name itself at the root, the parent's
id, a `'/'` and the name for a child of an actor; on a taken id the default spawner returns
`ErrNameExists`.  `Spawn` and `SpawnPrefix` name the process after `NextId()`, behind the
caller's prefix, and panic if that id is taken.  `NewFuture` and `newGuardian` register their
process as `"future"` and `"guardian"` followed by `NextId()`, and only log an error if the id is
taken.

A `SpawnSystem` is the registry with its `SequenceID`.  Each call is one step, and the calls come
in any order (`outputs`).  The props are those of the default spawner: a custom spawner, the
spawn middleware and a guardian strategy are left out, and so is what a spawn does once its id
is registered (the mailbox, the `Started` message, the parent's children).

* `generated_ids_never_taken`: in every run from a new registry in which no `SpawnNamed` name
  holds a `'$'` and `NextId` is called fewer than `2 ^ 64` times, every call that names its
  process after `NextId` finds its id free: `Spawn` and `SpawnPrefix` never panic, and every
  future and guardian is registered.  The id such a call makes ends in `'$'` and the digits of
  the counter (`uint64ToId_eq`), and it splits there in one way only, whatever the prefix
  (`eq_of_append_cons_eq_append_cons`).  The invariant (`Fresh`) is that every registered id
  so split carries a counter at most the current `SequenceID`.
-/

namespace ProtoActor.Actor

open Transition Collections

/-! ### The characters of an id -/

/-- The string `string(buf[i:])` makes of the bytes of an id: one character per byte, the bytes
being ASCII. -/
def idString (bytes : List UInt8) : String :=
  String.ofList (bytes.map fun b => Char.ofNat b.toNat)

/-- The character of the digit `d`. -/
def digitChar (d : ℕ) : Char :=
  Char.ofNat (digitByte d).toNat

theorem toNat_ofNat_byte (b : UInt8) : (Char.ofNat b.toNat).toNat = b.toNat := by
  have hb : b.toNat < 0xd800 := by
    have := b.toNat_lt
    omega
  unfold Char.ofNat
  rw [dif_pos (Or.inl hb)]
  rfl

/-- No digit is a `'$'` or a `'/'`. -/
theorem digitChar_ne : ∀ d < 64, digitChar d ≠ '$' ∧ digitChar d ≠ '/' := by
  decide +kernel

/-- Reading a digit back from its character. -/
def digitOfChar (ch : Char) : ℕ :=
  digits.idxOf (UInt8.ofNat ch.toNat)

theorem digitOfChar_digitChar {d : ℕ} (hd : d < 64) : digitOfChar (digitChar d) = d := by
  rw [digitOfChar, digitChar, toNat_ofNat_byte, UInt8.ofNat_toNat, idxOf_digitByte hd]

/-- The digits of a counter read back from their characters. -/
theorem map_digitOfChar_digitChar (c : ℕ) :
    ((base64Digits c).map digitChar).map digitOfChar = base64Digits c := by
  rw [List.map_map]
  conv_rhs => rw [← List.map_id (base64Digits c)]
  exact List.map_congr_left fun d hd => digitOfChar_digitChar (lt_of_mem_base64Digits hd)

theorem base64Digits_injective {m n : ℕ} (h : base64Digits m = base64Digits n) : m = n := by
  rw [← ofDigits_reverse_base64Digits m, ← ofDigits_reverse_base64Digits n, h]

/-- The characters of `NextId`'s id for the counter `u`: `'$'` and the digits of `u`. -/
theorem idString_uint64ToId (u : UInt64) :
    (uint64ToId u).map idString =
      some (String.ofList ('$' :: (base64Digits u.toNat).map digitChar)) := by
  have hdollar : Char.ofNat '$'.toUInt8.toNat = '$' := by decide
  rw [uint64ToId_eq, Option.map_some, idString, List.map_cons, hdollar, List.map_map]
  rfl

/-- `id` ends in `'$'` and the digits of `c`, as the id `NextId` makes of the counter `c`
does, behind some prefix. -/
def Generated (id : String) (c : ℕ) : Prop :=
  ∃ pre : List Char, id.toList = pre ++ '$' :: (base64Digits c).map digitChar

theorem not_dollar_mem_digits {c : ℕ} : '$' ∉ (base64Digits c).map digitChar := by
  simp only [List.mem_map, not_exists, not_and]
  intro d hd
  exact (digitChar_ne d (lt_of_mem_base64Digits hd)).1

theorem not_slash_mem_digits {c : ℕ} : '/' ∉ (base64Digits c).map digitChar := by
  simp only [List.mem_map, not_exists, not_and]
  intro d hd
  exact (digitChar_ne d (lt_of_mem_base64Digits hd)).2

/-- An id ends in the digits of one counter at most. -/
theorem Generated.unique {id : String} {c c' : ℕ} (h : Generated id c) (h' : Generated id c') :
    c = c' := by
  obtain ⟨pre, hpre⟩ := h
  obtain ⟨pre', hpre'⟩ := h'
  obtain ⟨-, -, hdigits⟩ :=
    eq_of_append_cons_eq_append_cons not_dollar_mem_digits not_dollar_mem_digits
      (hpre.symm.trans hpre')
  -- the digits are below 64, where their characters tell them apart
  have hmap : base64Digits c = base64Digits c' := by
    rw [← map_digitOfChar_digitChar c, ← map_digitOfChar_digitChar c', hdigits]
  exact base64Digits_injective hmap

/-- A name with no `'$'` is no generated id. -/
theorem not_generated_of_dollar_free {id : String} (h : '$' ∉ id.toList) (c : ℕ) :
    ¬Generated id c := by
  rintro ⟨pre, hpre⟩
  exact h (hpre ▸ List.mem_append_right pre List.mem_cons_self)

/-- Nor is the id of a child whose name has no `'$'`: its last `'/'` would stand after the last
`'$'` of a generated id, which only digits follow. -/
theorem not_generated_child {parent name : String} (h : '$' ∉ name.toList) (c : ℕ) :
    ¬Generated (parent ++ "/" ++ name) c := by
  rintro ⟨pre, hpre⟩
  have hlist : pre ++ '$' :: (base64Digits c).map digitChar = parent.toList ++ '/' :: name.toList := by
    simpa [String.toList_append] using hpre.symm
  exact absurd (eq_of_append_cons_eq_append_cons h not_slash_mem_digits hlist).1 (by decide)

/-- What comes before a generated id does not change its counter. -/
theorem Generated.append_left {id : String} {c : ℕ} (h : Generated id c) (top : String) :
    Generated (top ++ id) c := by
  obtain ⟨pre, hpre⟩ := h
  exact ⟨top.toList ++ pre, by rw [String.toList_append, hpre, List.append_assoc]⟩

/-- The id `NextId` hands out for the counter `u`, behind any prefix, is generated from `u`. -/
theorem generated_append_idString {u : UInt64} {id : String}
    (h : (uint64ToId u).map idString = some id) (pre : String) : Generated (pre ++ id) u.toNat := by
  rw [idString_uint64ToId, Option.some.injEq] at h
  exact ⟨pre.toList, by rw [String.toList_append, ← h, String.toList_ofList]⟩

/-! ### The calls that name processes -/

/-- A call that registers or removes a local process; `proc` is the process a spawn registers. -/
inductive SpawnCall (π : Type)
  /-- `RootContext.Spawn`. -/
  | spawn (proc : π)
  /-- `RootContext.SpawnPrefix`. -/
  | spawnPrefix (proc : π) (pre : String)
  /-- `RootContext.SpawnNamed`. -/
  | spawnNamed (proc : π) (name : String)
  /-- `actorContext.Spawn` of the actor `parent`. -/
  | childSpawn (proc : π) (parent : PID)
  /-- `actorContext.SpawnPrefix` of the actor `parent`. -/
  | childSpawnPrefix (proc : π) (parent : PID) (pre : String)
  /-- `actorContext.SpawnNamed` of the actor `parent`. -/
  | childSpawnNamed (proc : π) (parent : PID) (name : String)
  /-- `NewFuture`. -/
  | newFuture (proc : π)
  /-- `guardiansValue.newGuardian`. -/
  | newGuardian (proc : π)
  /-- `ProcessRegistry.Remove` of a stopped process. -/
  | remove (pid : PID)

/-- What a call returns. -/
inductive SpawnOutcome
  /-- The PID of a process registered under a free id. -/
  | ok (pid : PID)
  /-- The PID of a taken id: `SpawnNamed` returns it with `ErrNameExists`, and `NewFuture` and
  `newGuardian` log an error and go on with it. -/
  | nameExists (pid : PID)
  /-- `panic(err)` of `Spawn` and `SpawnPrefix`. -/
  | panicked
  /-- `Remove`, which returns nothing. -/
  | removed
  deriving DecidableEq, Repr

/-- The calls that name their process after `NextId()`. -/
def SpawnCall.usesNextId {π : Type} : SpawnCall π → Bool
  | .spawn _ | .spawnPrefix _ _ | .childSpawn _ _ | .childSpawnPrefix _ _ _ | .newFuture _
  | .newGuardian _ => true
  | .spawnNamed _ _ | .childSpawnNamed _ _ _ | .remove _ => false

/-- The name a call passes to `SpawnNamed` holds no `'$'`, as the note on `SpawnNamed` asks. -/
def SpawnCall.NameFree {π : Type} : SpawnCall π → Prop
  | .spawnNamed _ name | .childSpawnNamed _ _ name => '$' ∉ name.toList
  | _ => True

instance {π : Type} (c : SpawnCall π) : Decidable c.NameFree :=
  match c with
  | .spawnNamed _ name | .childSpawnNamed _ _ name =>
    inferInstanceAs (Decidable ('$' ∉ name.toList))
  | .spawn _ | .spawnPrefix _ _ | .childSpawn _ _ | .childSpawnPrefix _ _ _ | .newFuture _
  | .newGuardian _ | .remove _ => isTrue trivial

/-- The registry's processes, and its `SequenceID`. -/
structure SpawnSystem (π : Type) where
  registry : ProcessRegistry π
  sequence : ProcessRegistryValue

namespace SpawnSystem

variable {π : Type} (sum32 : String → UInt32)

/-- A new actor system's registry: no process yet, and the counter at zero. -/
def new : SpawnSystem π :=
  ⟨ProcessRegistry.newProcessRegistry, ⟨0⟩⟩

/-- `NextId`, as the string it returns. -/
def nextId (s : SpawnSystem π) : Option String × SpawnSystem π :=
  (s.sequence.nextId.1.map idString, { s with sequence := s.sequence.nextId.2 })

/-- `defaultSpawner`: `Add` of the new actor process under `id`; on a taken id it returns the PID
with `ErrNameExists`. -/
def defaultSpawner (s : SpawnSystem π) (proc : π) (id : String) : (PID × Bool) × SpawnSystem π :=
  let r := s.registry.add sum32 proc id
  (r.1, { s with registry := r.2 })

/-- `RootContext.SpawnNamed`. -/
def rootSpawnNamed (s : SpawnSystem π) (proc : π) (name : String) :
    (PID × Bool) × SpawnSystem π :=
  s.defaultSpawner sum32 proc name

/-- `actorContext.SpawnNamed` of the actor `parent`: the id is `parent.Id + "/" + name`. -/
def childSpawnNamed (s : SpawnSystem π) (proc : π) (parent : PID) (name : String) :
    (PID × Bool) × SpawnSystem π :=
  s.defaultSpawner sum32 proc (parent.id ++ "/" ++ name)

/-- What `SpawnNamed` returns: the PID, with `ErrNameExists` if the id was taken. -/
def namedOutcome (r : PID × Bool) : SpawnOutcome :=
  if r.2 then .ok r.1 else .nameExists r.1

/-- `pid, err := SpawnNamed(props, pre + NextId()); if err != nil { panic(err) }`, where `named`
is the `SpawnNamed` of the root or of an actor. -/
def spawnWithNextId (s : SpawnSystem π)
    (named : SpawnSystem π → String → (PID × Bool) × SpawnSystem π) (pre : String) :
    SpawnOutcome × SpawnSystem π :=
  match s.nextId with
  -- `uint64ToId` indexing out of its buffer, a panic in Go
  | (none, s) => (.panicked, s)
  | (some id, s) =>
    let r := named s (pre ++ id)
    (if r.1.2 then .ok r.1.1 else .panicked, r.2)

/-- `RootContext.Spawn`: `SpawnNamed(props, NextId())`, with nothing before the id. -/
def rootSpawn (s : SpawnSystem π) (proc : π) : SpawnOutcome × SpawnSystem π :=
  s.spawnWithNextId (fun s => s.rootSpawnNamed sum32 proc) ""

/-- `RootContext.SpawnPrefix`. -/
def rootSpawnPrefix (s : SpawnSystem π) (proc : π) (pre : String) : SpawnOutcome × SpawnSystem π :=
  s.spawnWithNextId (fun s => s.rootSpawnNamed sum32 proc) pre

/-- `actorContext.Spawn` of the actor `parent`. -/
def childSpawn (s : SpawnSystem π) (proc : π) (parent : PID) : SpawnOutcome × SpawnSystem π :=
  s.spawnWithNextId (fun s => s.childSpawnNamed sum32 proc parent) ""

/-- `actorContext.SpawnPrefix` of the actor `parent`. -/
def childSpawnPrefix (s : SpawnSystem π) (proc : π) (parent : PID) (pre : String) :
    SpawnOutcome × SpawnSystem π :=
  s.spawnWithNextId (fun s => s.childSpawnNamed sum32 proc parent) pre

/-- `Add(ref, pre + NextId())` of `NewFuture` and `newGuardian`: a taken id is logged, and the
caller goes on with its PID. -/
def addWithNextId (s : SpawnSystem π) (proc : π) (pre : String) : SpawnOutcome × SpawnSystem π :=
  match s.nextId with
  | (none, s) => (.panicked, s)
  | (some id, s) =>
    let r := s.registry.add sum32 proc (pre ++ id)
    (namedOutcome r.1, { s with registry := r.2 })

/-- `NewFuture`. -/
def newFuture (s : SpawnSystem π) (proc : π) : SpawnOutcome × SpawnSystem π :=
  s.addWithNextId sum32 proc "future"

/-- `guardiansValue.newGuardian`. -/
def newGuardian (s : SpawnSystem π) (proc : π) : SpawnOutcome × SpawnSystem π :=
  s.addWithNextId sum32 proc "guardian"

/-- `Remove` of the PID's process. -/
def remove (s : SpawnSystem π) (pid : PID) : SpawnSystem π :=
  { s with registry := (s.registry.remove sum32 pid).2 }

/-- One call. -/
def step (s : SpawnSystem π) : SpawnCall π → SpawnOutcome × SpawnSystem π
  | .spawn proc => s.rootSpawn sum32 proc
  | .spawnPrefix proc pre => s.rootSpawnPrefix sum32 proc pre
  | .spawnNamed proc name =>
    let r := s.rootSpawnNamed sum32 proc name
    (namedOutcome r.1, r.2)
  | .childSpawn proc parent => s.childSpawn sum32 proc parent
  | .childSpawnPrefix proc parent pre => s.childSpawnPrefix sum32 proc parent pre
  | .childSpawnNamed proc parent name =>
    let r := s.childSpawnNamed sum32 proc parent name
    (namedOutcome r.1, r.2)
  | .newFuture proc => s.newFuture sum32 proc
  | .newGuardian proc => s.newGuardian sum32 proc
  | .remove pid => (.removed, s.remove sum32 pid)

/-! ### Generated ids are fresh -/

/-- Every registered id that ends in `'$'` and the digits of a counter ends in those of a counter
`NextId` has handed out: one at most `SequenceID`. -/
def Fresh (s : SpawnSystem π) : Prop :=
  ∀ id c, (s.registry.getLocal sum32 id).isSome → Generated id c →
    c ≤ s.sequence.sequenceID.toNat

theorem fresh_new : (new : SpawnSystem π).Fresh sum32 := by
  intro id c hsome
  simp [new, ProcessRegistry.getLocal, ProcessRegistry.newProcessRegistry] at hsome

/-- `NextId` bumps the counter and hands out an id generated from the new one. -/
theorem nextId_spec (s : SpawnSystem π) :
    ∃ id, s.nextId = (some id, { s with sequence := ⟨s.sequence.sequenceID + 1⟩ }) ∧
      ∀ pre, Generated (pre ++ id) (s.sequence.sequenceID + 1).toNat := by
  obtain ⟨id, hid⟩ : ∃ id, (uint64ToId (s.sequence.sequenceID + 1)).map idString = some id :=
    ⟨_, idString_uint64ToId _⟩
  exact ⟨id, by simp only [nextId, ProcessRegistryValue.nextId, hid],
    generated_append_idString hid⟩

variable {sum32}

/-- An id generated from a counter past `SequenceID` is free. -/
theorem Fresh.getLocal_eq_none {s : SpawnSystem π} (hs : s.Fresh sum32) {id : String} {c : ℕ}
    (hgen : Generated id c) (hc : s.sequence.sequenceID.toNat < c) :
    s.registry.getLocal sum32 id = none := by
  cases hget : s.registry.getLocal sum32 id with
  | none => rfl
  | some p =>
    have hle := hs id c (by rw [hget]; rfl) hgen
    omega

/-- Bumping the counter keeps the invariant, as long as it does not come round. -/
theorem Fresh.bump {s : SpawnSystem π} (hs : s.Fresh sum32)
    (hbound : s.sequence.sequenceID.toNat + 1 < 2 ^ 64) :
    Fresh sum32 { s with sequence := ⟨s.sequence.sequenceID + 1⟩ } ∧
      (s.sequence.sequenceID + 1).toNat = s.sequence.sequenceID.toNat + 1 := by
  have hnext : (s.sequence.sequenceID + 1).toNat = s.sequence.sequenceID.toNat + 1 := by
    rw [UInt64.toNat_add, UInt64.toNat_one]
    exact Nat.mod_eq_of_lt hbound
  refine ⟨fun id c hsome hgen => ?_, hnext⟩
  have hle := hs id c hsome hgen
  show c ≤ (s.sequence.sequenceID + 1).toNat
  omega

/-- `Add` under an id whose generated counter, if any, is at most `SequenceID` keeps the
invariant. -/
theorem Fresh.add {s : SpawnSystem π} (hs : s.Fresh sum32) {id : String}
    (hid : ∀ c, Generated id c → c ≤ s.sequence.sequenceID.toNat) (proc : π) :
    Fresh sum32 { s with registry := (s.registry.add sum32 proc id).2 } := by
  intro k c hsome hgen
  change ((s.registry.add sum32 proc id).2.getLocal sum32 k).isSome at hsome
  rw [ProcessRegistry.getLocal_add] at hsome
  split_ifs at hsome with hk
  · -- the new entry
    obtain ⟨rfl, -⟩ := hk
    exact hid c hgen
  · exact hs k c hsome hgen

theorem Fresh.remove {s : SpawnSystem π} (hs : s.Fresh sum32) (pid : PID) :
    (s.remove sum32 pid).Fresh sum32 := by
  intro k c hsome hgen
  change ((s.registry.remove sum32 pid).2.getLocal sum32 k).isSome at hsome
  rw [ProcessRegistry.getLocal_remove] at hsome
  split_ifs at hsome
  · cases hsome
  · exact hs k c hsome hgen

/-- After `NextId`, the id a call makes is free, and registering it keeps the invariant. -/
theorem Fresh.add_next {s : SpawnSystem π} (hs : s.Fresh sum32)
    (hbound : s.sequence.sequenceID.toNat + 1 < 2 ^ 64) {id : String}
    (hgen : Generated id (s.sequence.sequenceID + 1).toNat) (proc : π) :
    s.registry.getLocal sum32 id = none ∧
      Fresh sum32 ⟨(s.registry.add sum32 proc id).2, ⟨s.sequence.sequenceID + 1⟩⟩ := by
  obtain ⟨hbumped, hcount⟩ := hs.bump hbound
  refine ⟨hs.getLocal_eq_none hgen (by omega), ?_⟩
  -- the new id carries the new counter only
  exact hbumped.add (fun c hc => (hc.unique hgen).le) proc

/-- `Spawn` and `SpawnPrefix`, of the root or of an actor, whose `SpawnNamed` registers the name
under an id that keeps its generated counter (`ident`): the process is registered, the invariant
kept, and the counter bumped. -/
theorem Fresh.spawnWithNextId {s : SpawnSystem π} (hs : s.Fresh sum32)
    (hbound : s.sequence.sequenceID.toNat + 1 < 2 ^ 64) {proc : π} {ident : String → String}
    (hident : ∀ name c, Generated name c → Generated (ident name) c)
    {named : SpawnSystem π → String → (PID × Bool) × SpawnSystem π}
    (hnamed : ∀ s' name, named s' name = s'.defaultSpawner sum32 proc (ident name))
    (pre : String) :
    (∃ pid, (s.spawnWithNextId named pre).1 = .ok pid) ∧
      (s.spawnWithNextId named pre).2.Fresh sum32 ∧
      (s.spawnWithNextId named pre).2.sequence.sequenceID.toNat =
        s.sequence.sequenceID.toNat + 1 := by
  obtain ⟨id, hnext, hgen⟩ := s.nextId_spec
  obtain ⟨hfree, hfresh⟩ := hs.add_next hbound (hident _ _ (hgen pre)) proc
  have hcount := (hs.bump hbound).2
  rw [SpawnSystem.spawnWithNextId, hnext]
  simp only [hnamed, defaultSpawner, ProcessRegistry.add_absent, hfree, Option.isNone_none,
    if_true]
  exact ⟨⟨_, rfl⟩, hfresh, hcount⟩

/-- `NewFuture` and `newGuardian`: the process is registered, the invariant kept, and the counter
bumped. -/
theorem Fresh.addWithNextId {s : SpawnSystem π} (hs : s.Fresh sum32)
    (hbound : s.sequence.sequenceID.toNat + 1 < 2 ^ 64) (proc : π) (pre : String) :
    (∃ pid, (s.addWithNextId sum32 proc pre).1 = .ok pid) ∧
      (s.addWithNextId sum32 proc pre).2.Fresh sum32 ∧
      (s.addWithNextId sum32 proc pre).2.sequence.sequenceID.toNat =
        s.sequence.sequenceID.toNat + 1 := by
  obtain ⟨id, hnext, hgen⟩ := s.nextId_spec
  obtain ⟨hfree, hfresh⟩ := hs.add_next hbound (hgen pre) proc
  have hcount := (hs.bump hbound).2
  rw [SpawnSystem.addWithNextId, hnext]
  simp only [namedOutcome, ProcessRegistry.add_absent, hfree, Option.isNone_none, if_true]
  exact ⟨⟨_, rfl⟩, hfresh, hcount⟩

/-- `SpawnNamed` under an id that is not generated keeps the invariant. -/
theorem Fresh.defaultSpawner {s : SpawnSystem π} (hs : s.Fresh sum32) {id : String}
    (hid : ∀ c, ¬Generated id c) (proc : π) :
    (s.defaultSpawner sum32 proc id).2.Fresh sum32 :=
  hs.add (fun c hc => absurd hc (hid c)) proc

/-- One call keeps the invariant and moves the counter by its use of `NextId`; a call that uses
`NextId` registers its process. -/
theorem Fresh.step {s : SpawnSystem π} (hs : s.Fresh sum32) {c : SpawnCall π} (hc : c.NameFree)
    (hbound : s.sequence.sequenceID.toNat + (if c.usesNextId then 1 else 0) < 2 ^ 64) :
    (s.step sum32 c).2.Fresh sum32 ∧
      (s.step sum32 c).2.sequence.sequenceID.toNat =
        s.sequence.sequenceID.toNat + (if c.usesNextId then 1 else 0) ∧
      (c.usesNextId = true → ∃ pid, (s.step sum32 c).1 = .ok pid) := by
  -- the root registers the name itself, an actor its id, a `'/'` and the name
  have hroot : ∀ name c, Generated name c → Generated ((fun n => n) name) c := fun _ _ h => h
  have hchild (parent : PID) : ∀ name c, Generated name c →
      Generated ((fun n => parent.id ++ "/" ++ n) name) c :=
    fun _ _ h => h.append_left _
  cases c with
  | spawn proc =>
    obtain ⟨hok, hfresh, hcount⟩ := hs.spawnWithNextId hbound hroot (fun _ _ => rfl) ""
    exact ⟨hfresh, hcount, fun _ => hok⟩
  | spawnPrefix proc pre =>
    obtain ⟨hok, hfresh, hcount⟩ := hs.spawnWithNextId hbound hroot (fun _ _ => rfl) pre
    exact ⟨hfresh, hcount, fun _ => hok⟩
  | spawnNamed proc name =>
    exact ⟨hs.defaultSpawner (not_generated_of_dollar_free hc) proc, rfl, fun h => by cases h⟩
  | childSpawn proc parent =>
    obtain ⟨hok, hfresh, hcount⟩ := hs.spawnWithNextId hbound (hchild parent) (fun _ _ => rfl) ""
    exact ⟨hfresh, hcount, fun _ => hok⟩
  | childSpawnPrefix proc parent pre =>
    obtain ⟨hok, hfresh, hcount⟩ := hs.spawnWithNextId hbound (hchild parent) (fun _ _ => rfl) pre
    exact ⟨hfresh, hcount, fun _ => hok⟩
  | childSpawnNamed proc parent name =>
    exact ⟨hs.defaultSpawner (not_generated_child hc) proc, rfl, fun h => by cases h⟩
  | newFuture proc =>
    obtain ⟨hok, hfresh, hcount⟩ := hs.addWithNextId hbound proc "future"
    exact ⟨hfresh, hcount, fun _ => hok⟩
  | newGuardian proc =>
    obtain ⟨hok, hfresh, hcount⟩ := hs.addWithNextId hbound proc "guardian"
    exact ⟨hfresh, hcount, fun _ => hok⟩
  | remove pid =>
    exact ⟨hs.remove pid, rfl, fun h => by cases h⟩

/-- Over a run whose named spawns take no `'$'` and whose counter does not come round, every call
that uses `NextId` registers its process. -/
theorem ok_of_fresh (calls : List (SpawnCall π)) :
    ∀ s : SpawnSystem π, s.Fresh sum32 → (∀ c ∈ calls, c.NameFree) →
      s.sequence.sequenceID.toNat + (calls.filter SpawnCall.usesNextId).length < 2 ^ 64 →
      ∀ c o, (c, o) ∈ calls.zip (outputs (step sum32) s calls) → c.usesNextId = true →
        ∃ pid, o = .ok pid := by
  induction calls with
  | nil => intro s _ _ _ c o hmem; simp at hmem
  | cons c cs ih =>
    intro s hs hnamed hcount c' o hmem huses
    have hc := hnamed c List.mem_cons_self
    -- the counter moves by this call's use of `NextId`, which the bound leaves room for
    have hlen : (List.filter SpawnCall.usesNextId (c :: cs)).length =
        (if c.usesNextId then 1 else 0) + (cs.filter SpawnCall.usesNextId).length := by
      rw [List.filter_cons]
      split <;> simp [*, Nat.add_comm]
    obtain ⟨hfresh, hseq, hok⟩ := hs.step hc (by omega)
    rw [outputs_cons, List.zip_cons_cons, List.mem_cons] at hmem
    rcases hmem with heq | hmem
    · obtain ⟨rfl, rfl⟩ := Prod.mk.inj heq
      exact hok huses
    · exact ih _ hfresh (fun c hc => hnamed c (List.mem_cons_of_mem _ hc)) (by omega) c' o hmem
        huses

end SpawnSystem

/-- **Generated ids are never taken.**  In every run from a new registry in which no name given
to `SpawnNamed` holds a `'$'`, and `NextId` is called fewer than `2 ^ 64` times, every call that
names its process after `NextId` registers it under a free id: `Spawn` and `SpawnPrefix`, of the
root or of an actor, never panic, and every future and guardian is registered. -/
theorem generated_ids_never_taken {π : Type} (sum32 : String → UInt32) (calls : List (SpawnCall π))
    (hnamed : ∀ c ∈ calls, c.NameFree)
    (hcount : (calls.filter SpawnCall.usesNextId).length < 2 ^ 64) :
    ∀ c o, (c, o) ∈ calls.zip (outputs (SpawnSystem.step sum32) SpawnSystem.new calls) →
      c.usesNextId = true → ∃ pid, o = .ok pid :=
  SpawnSystem.ok_of_fresh calls _ (SpawnSystem.fresh_new sum32) hnamed
    (by simpa [SpawnSystem.new] using hcount)

/-- The dead letter process, a spawn, a child of it by prefix, a future, the child's removal and
another spawn. -/
def spawnRun : List (SpawnCall ℕ) :=
  [.spawnNamed 0 "deadletter", .spawn 1, .childSpawnPrefix 2 ⟨localAddress, "$1", 0⟩ "worker",
    .newFuture 3, .remove ⟨localAddress, "$1/worker$2", 0⟩, .spawn 4]

theorem generated_ids_never_taken_spawnRun :
    (∀ c ∈ spawnRun, c.NameFree) ∧ (spawnRun.filter SpawnCall.usesNextId).length < 2 ^ 64 ∧
      ∀ c o, (c, o) ∈ spawnRun.zip (outputs (SpawnSystem.step fun _ => 0) SpawnSystem.new
        spawnRun) → c.usesNextId = true → ∃ pid, o = .ok pid :=
  ⟨by decide, by decide, generated_ids_never_taken _ spawnRun (by decide) (by decide)⟩

end ProtoActor.Actor
