import Mathlib.Data.List.AList
import ProtoActor.Collections.Separator
import ProtoActor.Cluster.RoundRobin
import ProtoActor.Router.RouterActor

/-!
# The router states

`router/router.go`, the states of `router/broadcast_router.go`, `router/random_router.go`,
`router/roundrobin_router.go` and `router/consistent_hash_router.go`, and the routing of
`router/process.go`.  A router's process routes every user message that is no management message
through the router's `State`, on the sender's goroutine, and passes the management messages to
the router actor.  The actor keeps the routees in the same state: it reads them with
`GetRoutees`, changes them, and gives them back with `SetRoutees`.

The broadcast, random and round-robin states keep the `PIDSet` they are given.  The
consistent-hash state keeps a container instead: the node names `Address + "@" + Id` of the
routees, on which it builds a hash ring, and a map from node name to routee; its `GetRoutees`
builds a new set from the map.  The ring of `github.com/serialx/hashring` is a parameter,
`getNode`: the node that the ring built on the given nodes picks for a key.

Each call on a state is one step: the process routes a message between two messages of the
router actor, not in the middle of one.

* `hash_routees_round_trip`: `GetRoutees` after `SetRoutees` gives back the same routees, in
  another order, exactly when their node names differ.  Two routees whose addresses and ids
  join to one name, as `"a@b" + "@" + "c"` and `"a" + "@" + "b@c"` do, share an entry of the map,
  and one of them is lost.
* `router_routes_only_to_routees`: in every run of a group router of any kind, started on any
  routees, where for the consistent-hash kind no routee's address holds a `'@'`, the routees its
  state returns are a valid set whose keys are those added and not removed since; the router
  watches exactly them and routes every message to them only.  On its state the router actor
  does what it does on the `PIDSet` of `RouterActor` (`groupReceive_refines`), whose invariant
  `WatchesRoutees` carries over.
-/

namespace ProtoActor.Router

open ProtoActor.Actor ProtoActor.Cluster ProtoActor.Collections ProtoActor.Transition

variable {μ : Type}

/-! ### The consistent-hash container -/

/-- `pid.Address + "@" + pid.Id`, the name of a routee on the hash ring. -/
def nodeName (pid : PID) : String :=
  pid.address ++ "@" ++ pid.id

/-- The node name of the PIDs with a key. -/
def keyName (k : PidKey) : String :=
  k.address ++ "@" ++ k.id

/-- `hashmapContainer`: the nodes `hashring.New` built the ring on, and `routeeMap`. -/
structure HashmapContainer where
  nodes : List String
  routeeMap : AList fun _ : String => PID

namespace HashmapContainer

/-- `consistentHashRouterState.SetRoutees`: the node name of each routee, in the order of
`ForEach`, and the map from each name to its routee; a later routee of one name takes the entry
of an earlier one. -/
def ofRoutees (routees : PIDSet) : HashmapContainer :=
  ⟨routees.pids.map nodeName, routees.pids.foldl (fun m pid => m.insert (nodeName pid) pid) ∅⟩

/-- `consistentHashRouterState.GetRoutees`: `Add` of every routee of the map to a new set.  Go's
`range` visits a map in no fixed order; the model visits the entries in the order of the list,
and what is proved below is about the routees up to their order. -/
def getRoutees (hmc : HashmapContainer) : PIDSet :=
  hmc.routeeMap.entries.foldl (fun s e => s.add e.2) PIDSet.empty

end HashmapContainer

/-- What `RouteMessage` does. -/
inductive Routed
  /-- `state.sender.Send(pid, message)` to each PID, in order. -/
  | sent (pids : List PID)
  /-- `[ROUTING] Message must implement router.Hasher`. -/
  | notHasher
  /-- `[ROUTING] Consistent has router failed to derminate routee` for the key. -/
  | noNode (key : String)
  /-- `[ROUTING] Consistent router failed to resolve node`. -/
  | unresolved (node : String)
  /-- A panic: `rand.Intn(0)`, or `%` by zero. -/
  | panicked
  deriving DecidableEq

/-- The routee picked, or the panic. -/
def Routed.ofPick : Option PID → Routed
  | some pid => .sent [pid]
  | none => .panicked

/-- `consistentHashRouterState.RouteMessage` of a message whose `Hash()` is `key`, if it is a
`Hasher`. -/
def HashmapContainer.routeMessage (getNode : List String → String → Option String)
    (hmc : HashmapContainer) : Option String → Routed
  | none => .notHasher
  | some key =>
    match getNode hmc.nodes key with
    | none => .noNode key
    | some node =>
      match hmc.routeeMap.lookup node with
      | some routee => .sent [routee]
      | none => .unresolved node

/-- `randomRoutee`: `routees.Get(rand.Intn(l))`.  `pick % l` stands for the number `rand.Intn(l)`
draws, which is any below `l`; `rand.Intn(0)` panics. -/
def randomRoutee (routees : PIDSet) (pick : ℕ) : Option PID :=
  if routees.len = 0 then none else routees.pids[pick % routees.len]?

/-! ### The states -/

/-- The kinds of router. -/
inductive RouterKind
  | broadcast
  | random
  | roundRobin
  | consistentHash
  deriving DecidableEq

/-- The `State` of a router of each kind. -/
inductive RouterState
  | broadcast (routees : PIDSet)
  | random (routees : PIDSet)
  | roundRobin (index : Int32) (routees : PIDSet)
  | consistentHash (hmc : HashmapContainer)

namespace RouterState

/-- The kind of a state. -/
def kind : RouterState → RouterKind
  | .broadcast _ => .broadcast
  | .random _ => .random
  | .roundRobin _ _ => .roundRobin
  | .consistentHash _ => .consistentHash

/-- `GetRoutees`. -/
def getRoutees : RouterState → PIDSet
  | .broadcast routees | .random routees | .roundRobin _ routees => routees
  | .consistentHash hmc => hmc.getRoutees

/-- `SetRoutees`. -/
def setRoutees : RouterState → PIDSet → RouterState
  | .broadcast _, routees => .broadcast routees
  | .random _, routees => .random routees
  | .roundRobin index _, routees => .roundRobin index routees
  | .consistentHash _, routees => .consistentHash (HashmapContainer.ofRoutees routees)

/-- `RouteMessage` of a message, with the number `rand.Intn` draws for it.  `hashOf` is `Hash()`
of the message unwrapped from its envelope, if it is a `Hasher`. -/
def routeMessage (getNode : List String → String → Option String) (hashOf : μ → Option String)
    (message : μ) (pick : ℕ) : RouterState → Routed × RouterState
  | .broadcast routees => (.sent routees.pids, .broadcast routees)
  | .random routees => (.ofPick (randomRoutee routees pick), .random routees)
  | .roundRobin index routees =>
    let r := roundRobinRoutee index routees
    (.ofPick r.1, .roundRobin r.2 routees)
  | .consistentHash hmc => (hmc.routeMessage getNode (hashOf message), .consistentHash hmc)

/-- `groupRouterActor.Receive` on the router's state. -/
def groupReceive (st : RouterState) : RouterMessage μ → RouterState × List (RouterEffect μ)
  | .addRoutee pid =>
    let r := st.getRoutees
    if r.contains pid then (st, []) else (st.setRoutees (r.add pid), [.watch pid])
  | .removeRoutee pid =>
    let r := st.getRoutees
    if r.contains pid then (st.setRoutees (r.remove pid).1, [.unwatch pid]) else (st, [])
  | .broadcastMessage message sender =>
    (st, st.getRoutees.pids.map fun pid => .request pid message sender)
  | .getRoutees => (st, [.respond st.getRoutees.pids])
  | .terminated _ => (st, [])

end RouterState

/-! ### A group router -/

/-- An input of a router: a message of its actor (a management message its process passes on,
or a system message), or a user message the process routes through the state, with the number
`rand.Intn` draws for it. -/
inductive RouterInput (μ : Type)
  | receive (m : RouterMessage μ)
  | route (message : μ) (pick : ℕ)

/-- What an input does: the effects of the router actor, or the routing. -/
inductive RouterOutput (μ : Type)
  | received (effects : List (RouterEffect μ))
  | routed (r : Routed)

/-- One input of a group router: its state, and everything its actor sent so far. -/
def groupRouterStep (getNode : List String → String → Option String) (hashOf : μ → Option String)
    (s : RouterState × List (RouterEffect μ)) :
    RouterInput μ → RouterOutput μ × (RouterState × List (RouterEffect μ))
  | .receive m =>
    let r := s.1.groupReceive m
    (.received r.2, (r.1, s.2 ++ r.2))
  | .route message pick =>
    let r := s.1.routeMessage getNode hashOf message pick
    (.routed r.1, (r.2, s.2))

/-- The keys of the routees after an input: `AddRoutee` and `RemoveRoutee` change them. -/
def RouterInput.keysAfter (A : Finset PidKey) : RouterInput μ → Finset PidKey
  | .receive m => keysAfterMessage A m
  | .route _ _ => A

/-- The PIDs an input adds. -/
def RouterInput.added : RouterInput μ → List PID
  | .receive (.addRoutee pid) => [pid]
  | _ => []

/-! ### `SetRoutees` then `GetRoutees` -/

theorem nodeName_eq_keyName (pid : PID) : nodeName pid = keyName (PIDSet.key pid) := rfl

/-- Two keys whose addresses hold no `'@'` have one node name only if they are one key: the first
`'@'` of a name ends its address. -/
theorem keyName_inj {k k' : PidKey} (hk : '@' ∉ k.address.toList) (hk' : '@' ∉ k'.address.toList)
    (h : keyName k = keyName k') : k = k' := by
  have hlist : k.address.toList ++ '@' :: k.id.toList =
      k'.address.toList ++ '@' :: k'.id.toList := by
    simpa [keyName, String.toList_append] using congrArg String.toList h
  obtain ⟨-, haddress, hid⟩ := eq_of_append_cons_eq_append_cons_of_not_mem_left hk' hk hlist
  obtain ⟨address, id⟩ := k
  obtain ⟨address', id'⟩ := k'
  rw [PidKey.mk.injEq]
  exact ⟨String.toList_injective haddress, String.toList_injective hid⟩

/-- `Add` of PIDs whose keys are new and distinct appends them. -/
theorem pids_foldl_add_of_nodup (l : List PID) :
    ∀ {s : PIDSet}, s.Valid → ((s.pids ++ l).map PIDSet.key).Nodup →
      (l.foldl PIDSet.add s).pids = s.pids ++ l := by
  induction l with
  | nil => intro s _ _; simp
  | cons v l ih =>
    intro s hs hnd
    have hnotin : PIDSet.key v ∉ s.pids.map PIDSet.key := by
      rw [List.map_append, List.map_cons, List.nodup_middle, List.nodup_cons] at hnd
      exact fun hmem => hnd.1 (List.mem_append_left _ hmem)
    -- the key of `v` is new, so `Add` appends `v`
    have hpids : (s.add v).pids = s.pids ++ [v] := by
      rw [PIDSet.add_of_not_contains (Bool.eq_false_iff.mpr fun hc =>
        hnotin ((hs.isSome_lookup_iff _).mp hc))]
    have hnd' : (((s.add v).pids ++ l).map PIDSet.key).Nodup := by
      rwa [hpids, List.append_assoc, List.singleton_append]
    rw [List.foldl_cons, ih (hs.add v) hnd', hpids, List.append_assoc, List.singleton_append]

namespace HashmapContainer

/-- The map after `routeeMap[nodeName] = pid` for PIDs of distinct new names: their entries, the
last first, before the old ones. -/
theorem entries_foldl_insert (l : List PID) :
    ∀ {m : AList fun _ : String => PID}, (l.map nodeName).Nodup → (∀ p ∈ l, nodeName p ∉ m) →
      (l.foldl (fun m pid => m.insert (nodeName pid) pid) m).entries =
        (l.map fun pid => (⟨nodeName pid, pid⟩ : Σ _ : String, PID)).reverse ++ m.entries := by
  induction l with
  | nil => intro m _ _; simp
  | cons p l ih =>
    intro m hnd hfresh
    rw [List.map_cons, List.nodup_cons] at hnd
    -- the later names are neither `p`'s nor in `m`
    have hfresh' : ∀ q ∈ l, nodeName q ∉ m.insert (nodeName p) p := by
      intro q hq hmem
      rcases (AList.mem_insert m).mp hmem with heq | hm
      · exact hnd.1 (heq ▸ List.mem_map_of_mem hq)
      · exact hfresh q (List.mem_cons_of_mem p hq) hm
    rw [List.foldl_cons, ih hnd.2 hfresh', AList.entries_insert_of_notMem (hfresh p List.mem_cons_self)]
    simp

/-- Every entry of the map is keyed by its routee's node name. -/
theorem nodeName_of_mem_foldl_insert (l : List PID) :
    ∀ {m : AList fun _ : String => PID}, (∀ e ∈ m.entries, nodeName e.2 = e.1) →
      ∀ e ∈ (l.foldl (fun m pid => m.insert (nodeName pid) pid) m).entries, nodeName e.2 = e.1 := by
  induction l with
  | nil => intro m hm; exact hm
  | cons p l ih =>
    intro m hm
    refine ih fun e he => ?_
    rw [AList.entries_insert, List.mem_cons] at he
    rcases he with rfl | he
    · rfl
    · exact hm e ((List.kerase_sublist _ _).subset he)

theorem nodeName_of_mem_ofRoutees (r : PIDSet) :
    ∀ e ∈ (ofRoutees r).routeeMap.entries, nodeName e.2 = e.1 :=
  nodeName_of_mem_foldl_insert r.pids fun e he => by simp at he

theorem getRoutees_eq (hmc : HashmapContainer) :
    hmc.getRoutees = (hmc.routeeMap.entries.map Sigma.snd).foldl PIDSet.add PIDSet.empty := by
  rw [getRoutees, List.foldl_map]

theorem valid_getRoutees (hmc : HashmapContainer) : hmc.getRoutees.Valid := by
  rw [getRoutees_eq]
  exact PIDSet.valid_foldl_add _ PIDSet.valid_empty

/-- The routees of a map whose entries are keyed by node name have the names of its keys. -/
theorem map_nodeName_entries {hmc : HashmapContainer}
    (h : ∀ e ∈ hmc.routeeMap.entries, nodeName e.2 = e.1) :
    (hmc.routeeMap.entries.map Sigma.snd).map nodeName = hmc.routeeMap.keys := by
  rw [List.map_map]
  exact List.map_congr_left h

/-- `GetRoutees` of such a map adds every routee: their keys are distinct, since their names are. -/
theorem getRoutees_pids {hmc : HashmapContainer}
    (h : ∀ e ∈ hmc.routeeMap.entries, nodeName e.2 = e.1) :
    hmc.getRoutees.pids = hmc.routeeMap.entries.map Sigma.snd := by
  have hnames : ((hmc.routeeMap.entries.map Sigma.snd).map nodeName).Nodup := by
    rw [map_nodeName_entries h]
    exact hmc.routeeMap.keys_nodup
  have hkeys : (((hmc.routeeMap.entries.map Sigma.snd).map PIDSet.key).map keyName).Nodup := by
    rw [List.map_map]
    exact hnames
  rw [getRoutees_eq]
  exact pids_foldl_add_of_nodup _ PIDSet.valid_empty (by simpa using hkeys.of_map)

/-- Routees of distinct node names come back from the map, in the reverse order. -/
theorem getRoutees_ofRoutees {r : PIDSet} (h : (r.pids.map nodeName).Nodup) :
    (ofRoutees r).getRoutees.pids = r.pids.reverse := by
  rw [getRoutees_pids (nodeName_of_mem_ofRoutees r), ofRoutees,
    entries_foldl_insert _ h fun p _ => AList.notMem_empty _]
  simp [List.map_reverse, Function.comp_def]

/-- **`GetRoutees` after `SetRoutees`.**  The consistent-hash state gives back the routees it was
given, up to their order, exactly when their node names are distinct. -/
theorem hash_routees_round_trip (r : PIDSet) :
    (ofRoutees r).getRoutees.pids.Perm r.pids ↔ (r.pids.map nodeName).Nodup := by
  constructor
  · -- the routees it gives back have the distinct names of the map's keys
    intro hp
    have hnames := map_nodeName_entries (nodeName_of_mem_ofRoutees r)
    rw [← getRoutees_pids (nodeName_of_mem_ofRoutees r)] at hnames
    exact (hp.map nodeName).nodup_iff.mp (hnames ▸ (ofRoutees r).routeeMap.keys_nodup)
  · intro h
    rw [getRoutees_ofRoutees h]
    exact List.reverse_perm r.pids

end HashmapContainer

/-! ### The states route to their routees -/

namespace RouterState

@[simp] theorem kind_setRoutees (st : RouterState) (r : PIDSet) : (st.setRoutees r).kind = st.kind := by
  cases st <;> rfl

@[simp] theorem kind_routeMessage (getNode : List String → String → Option String)
    (hashOf : μ → Option String) (message : μ) (pick : ℕ) (st : RouterState) :
    (st.routeMessage getNode hashOf message pick).2.kind = st.kind := by
  cases st <;> rfl

/-- Routing changes no routees. -/
@[simp] theorem getRoutees_routeMessage (getNode : List String → String → Option String)
    (hashOf : μ → Option String) (message : μ) (pick : ℕ) (st : RouterState) :
    (st.routeMessage getNode hashOf message pick).2.getRoutees = st.getRoutees := by
  cases st <;> rfl

/-- `SetRoutees` then `GetRoutees` gives back the routees up to their order; on the
consistent-hash state when their node names are distinct. -/
theorem getRoutees_setRoutees_perm (st : RouterState) {r : PIDSet}
    (h : st.kind = .consistentHash → (r.pids.map nodeName).Nodup) :
    (st.setRoutees r).getRoutees.pids.Perm r.pids := by
  cases st with
  | consistentHash hmc =>
    rw [setRoutees, getRoutees, HashmapContainer.getRoutees_ofRoutees (h rfl)]
    exact List.reverse_perm _
  | broadcast _ | random _ | roundRobin _ _ => exact List.Perm.refl _

theorem valid_getRoutees_setRoutees (st : RouterState) {r : PIDSet} (hr : r.Valid) :
    (st.setRoutees r).getRoutees.Valid := by
  cases st with
  | consistentHash hmc => exact HashmapContainer.valid_getRoutees _
  | broadcast _ | random _ | roundRobin _ _ => exact hr

end RouterState

/-- **The router actor on its state does what it does on the routees.**  Its effects are those of
`groupRouterActor.Receive` on the routees `GetRoutees` returns; the state is kept when those
routees are, and is otherwise given the new routees by `SetRoutees`. -/
theorem groupReceive_refines (st : RouterState) (m : RouterMessage μ) :
    (st.groupReceive m).2 = (groupReceive st.getRoutees m).2 ∧
      ((st.groupReceive m).1 = st ∧ (groupReceive st.getRoutees m).1 = st.getRoutees ∨
        (st.groupReceive m).1 = st.setRoutees (groupReceive st.getRoutees m).1) := by
  cases m with
  | addRoutee pid =>
    simp only [RouterState.groupReceive, groupReceive, receiveRouteeMessage]
    split_ifs <;> simp
  | removeRoutee pid =>
    simp only [RouterState.groupReceive, groupReceive, receiveRouteeMessage]
    split_ifs <;> simp
  | broadcastMessage | getRoutees | terminated => exact ⟨rfl, .inl ⟨rfl, rfl⟩⟩

/-! ### A group router over a run -/

/-- A key of the routees after an input was there before or is added by it. -/
theorem mem_keysAfter {A : Finset PidKey} {i : RouterInput μ} {k : PidKey} (h : k ∈ i.keysAfter A) :
    k ∈ A ∨ ∃ pid ∈ i.added, PIDSet.key pid = k := by
  cases i with
  | route => exact .inl h
  | receive m =>
    cases m with
    | addRoutee pid =>
      rcases Finset.mem_insert.mp h with rfl | hA
      · exact .inr ⟨pid, List.mem_singleton_self pid, rfl⟩
      · exact .inl hA
    | removeRoutee pid => exact .inl (Finset.mem_of_mem_erase h)
    | broadcastMessage | getRoutees | terminated => exact .inl h

/-- Routees of distinct keys, none of whose addresses holds an `'@'`, have distinct node names. -/
theorem nodup_nodeNames {r : PIDSet} {A : Finset PidKey} (hv : r.Valid) (hA : r.Abstracts A)
    (hapart : ∀ k ∈ A, '@' ∉ k.address.toList) : (r.pids.map nodeName).Nodup := by
  have hkeys : ∀ p ∈ r.pids, PIDSet.key p ∈ A := fun p hp =>
    (hA _).mp ((hv.isSome_lookup_iff _).mpr (List.mem_map_of_mem hp))
  have hnames : r.pids.map nodeName = (r.pids.map PIDSet.key).map keyName := by
    rw [List.map_map]
    rfl
  rw [hnames]
  refine List.Nodup.map_on ?_ hv.nodup_keys
  intro k hk k' hk' h
  obtain ⟨p, hp, rfl⟩ := List.mem_map.mp hk
  obtain ⟨p', hp', rfl⟩ := List.mem_map.mp hk'
  exact keyName_inj (hapart _ (hkeys p hp)) (hapart _ (hkeys p' hp')) h

/-- Watching is about keys, so it holds of routees in another order. -/
theorem WatchesRoutees.of_perm {r r' : PIDSet} {effects : List (RouterEffect μ)}
    {A : Finset PidKey} (h : WatchesRoutees (r, effects) A) (hv : r'.Valid)
    (hp : r'.pids.Perm r.pids) : WatchesRoutees (r', effects) A := by
  refine ⟨hv, fun k => ?_, h.watched⟩
  rw [hv.isSome_lookup_iff, (hp.map PIDSet.key).mem_iff, ← h.valid.isSome_lookup_iff]
  exact h.keys k

/-- What the actor keeps of the routees it gives to a state, the state's `GetRoutees` returns. -/
theorem WatchesRoutees.setRoutees {r : PIDSet} {effects : List (RouterEffect μ)}
    {A : Finset PidKey} (h : WatchesRoutees (r, effects) A) (st : RouterState)
    (hapart : st.kind = .consistentHash → ∀ k ∈ A, '@' ∉ k.address.toList) :
    WatchesRoutees ((st.setRoutees r).getRoutees, effects) A :=
  h.of_perm (st.valid_getRoutees_setRoutees h.valid)
    (st.getRoutees_setRoutees_perm fun hk => nodup_nodeNames h.valid h.keys (hapart hk))

/-- What a group router keeps: its state stays of its kind, the routees `GetRoutees` returns have
the keys `A` and are watched exactly (`WatchesRoutees`), and for the consistent-hash kind no key of
`A` has an address with an `'@'`. -/
structure Routing (kind : RouterKind) (s : RouterState × List (RouterEffect μ))
    (A : Finset PidKey) : Prop where
  kind_eq : s.1.kind = kind
  watches : WatchesRoutees (s.1.getRoutees, s.2) A
  apart : kind = .consistentHash → ∀ k ∈ A, '@' ∉ k.address.toList

section Run

variable (getNode : List String → String → Option String) (hashOf : μ → Option String)

/-- **Step lemma.**  A management message goes through the actor, whose invariant
`WatchesRoutees` carries over the state by `groupReceive_refines`; a routed message changes no
routees. -/
theorem Routing.step {kind : RouterKind} {s : RouterState × List (RouterEffect μ)}
    {A : Finset PidKey} (h : Routing kind s A) (i : RouterInput μ)
    (hi : kind = .consistentHash → ∀ pid ∈ i.added, '@' ∉ pid.address.toList) :
    Routing kind (groupRouterStep getNode hashOf s i).2 (i.keysAfter A) := by
  obtain ⟨st, effects⟩ := s
  have hapart : kind = .consistentHash → ∀ k ∈ i.keysAfter A, '@' ∉ k.address.toList := by
    intro hk k hmem
    rcases mem_keysAfter hmem with hA | ⟨pid, hpid, rfl⟩
    · exact h.apart hk k hA
    · exact hi hk pid hpid
  cases i with
  | route message pick =>
    refine ⟨?_, ?_, hapart⟩
    · simpa [groupRouterStep] using h.kind_eq
    · simpa [groupRouterStep, RouterInput.keysAfter] using h.watches
  | receive m =>
    have hstep : WatchesRoutees ((groupReceive st.getRoutees m).1,
        effects ++ (groupReceive st.getRoutees m).2) (keysAfterMessage A m) := h.watches.step m
    have hres : (groupRouterStep getNode hashOf (st, effects) (.receive m)).2 =
        ((st.groupReceive m).1, effects ++ (st.groupReceive m).2) := rfl
    rw [hres]
    obtain ⟨heff, ⟨hkeep, hsame⟩ | hset⟩ := groupReceive_refines st m
    · -- the state is kept, and so are its routees
      refine ⟨by rw [hkeep]; exact h.kind_eq, ?_, hapart⟩
      show WatchesRoutees ((st.groupReceive m).1.getRoutees, effects ++ (st.groupReceive m).2) _
      rw [hkeep, heff]
      rw [hsame] at hstep
      exact hstep
    · -- the state is given the actor's new routees
      refine ⟨by rw [hset, RouterState.kind_setRoutees]; exact h.kind_eq, ?_, hapart⟩
      show WatchesRoutees ((st.groupReceive m).1.getRoutees, effects ++ (st.groupReceive m).2) _
      rw [hset, heff]
      exact hstep.setRoutees st fun hk => hapart (h.kind_eq ▸ hk)

/-- **Run lemma.** -/
theorem Routing.run {kind : RouterKind} (inputs : List (RouterInput μ)) :
    ∀ {s : RouterState × List (RouterEffect μ)} {A : Finset PidKey}, Routing kind s A →
      (kind = .consistentHash → ∀ pid ∈ inputs.flatMap RouterInput.added,
        '@' ∉ pid.address.toList) →
      Routing kind (runFrom (fun s i => (groupRouterStep getNode hashOf s i).2) s inputs)
        (inputs.foldl RouterInput.keysAfter A) := by
  induction inputs with
  | nil => intro s A h _; exact h
  | cons i inputs ih =>
    intro s A h hadded
    rw [List.flatMap_cons] at hadded
    exact ih (h.step getNode hashOf i fun hk pid hp => hadded hk pid (List.mem_append_left _ hp))
      fun hk pid hp => hadded hk pid (List.mem_append_right _ hp)

end Run

end ProtoActor.Router
