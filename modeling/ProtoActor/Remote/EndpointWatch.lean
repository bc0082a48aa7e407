import Mathlib.Data.List.AList
import ProtoActor.Actor.Pid
import ProtoActor.Transition.Run

/-!
# Remote watches

`remote/endpoint_manager.go` and `remote/endpoint_watcher.go`.  A local actor that watches a
remote one goes through its process (`remote_process.go`), which hands a `remoteWatch` to the
endpoint manager; a `Terminated` arriving from the remote node for a local watcher comes through
the endpoint reader as a `remoteTerminate`.  The manager sends each of these to the endpoint
watcher of the watchee's address, which `ensureConnected` creates, with a fresh writer and
watcher, when the address has no endpoint.  On `EndpointTerminatedEvent`, `removeEndpoint`
deletes the endpoint and tells its watcher, which sends `Terminated` with reason
`AddressTerminated` for every watch it holds, clears them, becomes `terminated` and stops.

The manager only routes to a running, connected watcher of the address
(`EndpointSystem.routes_to_live_watcher`).  But a connected watcher answers a `remoteTerminate`
with `Terminated` (reason `Stopped`) whether or not it holds the watch, so a `Terminated` from
the remote node that arrives after the endpoint terminated reaches a watcher created for it,
with no watches, and is passed on anyway (`EndpointSystem.remoteTerminate_of_lookup_none`):
`terminated_twice_after_endpoint_termination` follows a watch of `R` by `W` that is told twice,
once for the address and once as stopped.

The manager's operations are each one step here (the lazy endpoint's `sync.Once` and the
supervisor's spawn included), and a watcher handles one message of its mailbox per step.  A
stopped watcher's messages go to dead letters.
-/

namespace ProtoActor.Actor

/-- `TerminatedReason`, of the reasons the endpoint watcher gives. -/
inductive TerminatedReason
  | stopped
  | addressTerminated
  deriving DecidableEq, Repr

end ProtoActor.Actor

namespace ProtoActor.Remote

open ProtoActor.Transition ProtoActor.Actor

/-- A `Terminated` system message sent to a local watcher. -/
structure TerminatedSent where
  watcher : PID
  who : PID
  why : TerminatedReason
  deriving DecidableEq, Repr

/-- The messages of an endpoint watcher. -/
inductive WatcherMessage
  | started
  | remoteTerminate (watcher watchee : PID)
  | remoteWatch (watcher watchee : PID)
  | remoteUnwatch (watcher watchee : PID)
  | endpointConnected
  | endpointTerminated
  deriving DecidableEq, Repr

/-- What the watcher passes to the remote node: `Watch` and `Unwatch` of a watcher, sent to the
watchee. -/
inductive RemoteSent
  | watch (watchee watcher : PID)
  | unwatch (watchee watcher : PID)
  deriving DecidableEq, Repr

/-- The behaviours of `endpointWatcher`. -/
inductive WatcherBehavior
  | connected
  | terminated
  deriving DecidableEq, Repr

/-- The actor system around the watchers: its own address, and which ids `GetLocal` finds. -/
structure LocalRegistry where
  address : String
  isLocal : String → Bool

/-- `endpointWatcher`: its address, behaviour and watches, by the watcher's id. -/
structure EndpointWatcher where
  address : String
  behavior : WatcherBehavior
  watched : AList (fun _ : String => PIDSet)

/-- What handling one message does outside the watcher: `Terminated` messages to local
watchers, messages to the remote node, and whether it stops itself. -/
structure WatcherEffects where
  terminated : List TerminatedSent
  remote : List RemoteSent
  stop : Bool

namespace EndpointWatcher

variable (reg : LocalRegistry)

/-- `newEndpointWatcher`: connected, with no watches until `Started`. -/
def new (address : String) : EndpointWatcher :=
  ⟨address, .connected, ∅⟩

/-- Remove a watch from the table; a watcher left with none is deleted. -/
def removeWatch (watched : AList (fun _ : String => PIDSet)) (watcher watchee : PID) :
    AList (fun _ : String => PIDSet) :=
  match watched.lookup watcher.id with
  | some pidSet =>
    let pidSet := (pidSet.remove watchee).1
    if pidSet.len = 0 then watched.erase watcher.id else watched.insert watcher.id pidSet
  | none => watched

/-- `Terminated` for a watcher, if `GetLocal` finds it. -/
def notify (watcher who : PID) (why : TerminatedReason) : List TerminatedSent :=
  if reg.isLocal watcher.id then [⟨watcher, who, why⟩] else []

/-- The `AddressTerminated` of every watch of one watcher id, if `GetLocal` finds it. -/
def notifyAll (e : Σ _ : String, PIDSet) : List TerminatedSent :=
  if reg.isLocal e.1 then e.2.pids.map fun pid => ⟨⟨reg.address, e.1, 0⟩, pid, .addressTerminated⟩
  else []

/-- The `connected` behaviour. -/
def connected (w : EndpointWatcher) : WatcherMessage → EndpointWatcher × WatcherEffects
  | .started => ({ w with watched := ∅ }, ⟨[], [], false⟩)
  | .remoteTerminate watcher watchee =>
    -- the watch is deleted if it is there, and the watcher told in any case
    ({ w with watched := removeWatch w.watched watcher watchee },
      ⟨notify reg watcher watchee .stopped, [], false⟩)
  | .endpointConnected => (w, ⟨[], [], false⟩)
  | .endpointTerminated =>
    ({ w with watched := ∅, behavior := .terminated },
      ⟨w.watched.entries.flatMap (notifyAll reg), [], true⟩)
  | .remoteWatch watcher watchee =>
    let watched := match w.watched.lookup watcher.id with
      | some pidSet => w.watched.insert watcher.id (pidSet.add watchee)
      | none => w.watched.insert watcher.id (PIDSet.newPIDSet [watchee])
    ({ w with watched }, ⟨[], [.watch watchee watcher], false⟩)
  | .remoteUnwatch watcher watchee =>
    ({ w with watched := removeWatch w.watched watcher watchee }, ⟨[], [.unwatch watchee watcher], false⟩)

/-- The `terminated` behaviour. -/
def terminated (w : EndpointWatcher) : WatcherMessage → EndpointWatcher × WatcherEffects
  | .remoteWatch watcher watchee => (w, ⟨notify reg watcher watchee .addressTerminated, [], false⟩)
  | .endpointConnected => ({ w with behavior := .connected }, ⟨[], [], false⟩)
  | _ => (w, ⟨[], [], false⟩)

/-- `Receive`, through the current behaviour. -/
def receive (w : EndpointWatcher) (msg : WatcherMessage) : EndpointWatcher × WatcherEffects :=
  match w.behavior with
  | .connected => connected reg w msg
  | .terminated => terminated reg w msg

end EndpointWatcher

/-- A spawned endpoint watcher with its mailbox; once stopped, what is sent to it is dropped. -/
structure WatcherActor where
  state : EndpointWatcher
  mailbox : List WatcherMessage
  stopped : Bool

namespace WatcherActor

/-- A message sent to the watcher: queued, or dropped once it has stopped. -/
def post (msg : WatcherMessage) (a : WatcherActor) : WatcherActor :=
  if a.stopped then a else { a with mailbox := a.mailbox ++ [msg] }

/-- The watcher handles `msg`, with `rest` left in its mailbox; when it stops itself the rest is
dropped. -/
def handle (reg : LocalRegistry) (a : WatcherActor) (msg : WatcherMessage)
    (rest : List WatcherMessage) : WatcherActor × WatcherEffects :=
  let r := a.state.receive reg msg
  (⟨r.1, if r.2.stop then [] else rest, a.stopped || r.2.stop⟩, r.2)

end WatcherActor

/-- The endpoint manager's connections, each address to the index of its endpoint's watcher; the
watchers ever spawned; and what they have sent. -/
structure EndpointSystem where
  connections : AList (fun _ : String => ℕ)
  watchers : List WatcherActor
  terminatedSent : List TerminatedSent
  remoteSent : List RemoteSent

namespace EndpointSystem

variable (reg : LocalRegistry)

/-- No endpoint yet. -/
def new : EndpointSystem :=
  ⟨∅, [], [], []⟩

/-- `Root.Send` to the watcher at an index. -/
def send (s : EndpointSystem) (i : ℕ) (msg : WatcherMessage) : EndpointSystem :=
  { s with watchers := s.watchers.modify i (WatcherActor.post msg) }

/-- `ensureConnected`: the endpoint of the address, or a new one, whose watcher the supervisor
spawns (it is `Started` first). -/
def ensureConnected (s : EndpointSystem) (address : String) : ℕ × EndpointSystem :=
  match s.connections.lookup address with
  | some i => (i, s)
  | none =>
    let i := s.watchers.length
    (i, { s with
      connections := s.connections.insert address i
      watchers := s.watchers ++ [⟨EndpointWatcher.new address, [.started], false⟩] })

/-- `remoteWatch`, `remoteUnwatch` and `remoteTerminate`: to the watcher of the watchee's
address. -/
def toWatcher (s : EndpointSystem) (watchee : PID) (msg : WatcherMessage) : EndpointSystem :=
  let r := s.ensureConnected watchee.address
  r.2.send r.1 msg

/-- `remoteWatch`. -/
def remoteWatch (s : EndpointSystem) (watcher watchee : PID) : EndpointSystem :=
  s.toWatcher watchee (.remoteWatch watcher watchee)

/-- `remoteUnwatch`. -/
def remoteUnwatch (s : EndpointSystem) (watcher watchee : PID) : EndpointSystem :=
  s.toWatcher watchee (.remoteUnwatch watcher watchee)

/-- `remoteTerminate`. -/
def remoteTerminate (s : EndpointSystem) (watcher watchee : PID) : EndpointSystem :=
  s.toWatcher watchee (.remoteTerminate watcher watchee)

/-- `removeEndpoint`: delete the address's endpoint and tell its watcher. -/
def removeEndpoint (s : EndpointSystem) (address : String) : EndpointSystem :=
  match s.connections.lookup address with
  | some i => { s with connections := s.connections.erase address }.send i .endpointTerminated
  | none => s

/-- `endpointEvent` on `EndpointConnectedEvent`. -/
def endpointConnected (s : EndpointSystem) (address : String) : EndpointSystem :=
  let r := s.ensureConnected address
  r.2.send r.1 .endpointConnected

/-- The watcher at an index handles the first message of its mailbox. -/
def watcherStep (s : EndpointSystem) (i : ℕ) : EndpointSystem :=
  match s.watchers[i]? with
  | some a =>
    match a.mailbox with
    | msg :: rest =>
      let r := a.handle reg msg rest
      { s with
        watchers := s.watchers.set i r.1
        terminatedSent := s.terminatedSent ++ r.2.terminated
        remoteSent := s.remoteSent ++ r.2.remote }
    | [] => s
  | none => s

end EndpointSystem

/-- An input of the system: a call of the manager, an endpoint event, or a watcher's turn. -/
inductive EndpointInput
  | remoteWatch (watcher watchee : PID)
  | remoteUnwatch (watcher watchee : PID)
  | remoteTerminate (watcher watchee : PID)
  | endpointConnected (address : String)
  | endpointTerminated (address : String)
  | watcherStep (i : ℕ)

/-- One input. -/
def EndpointSystem.apply (reg : LocalRegistry) (s : EndpointSystem) : EndpointInput → EndpointSystem
  | .remoteWatch watcher watchee => s.remoteWatch watcher watchee
  | .remoteUnwatch watcher watchee => s.remoteUnwatch watcher watchee
  | .remoteTerminate watcher watchee => s.remoteTerminate watcher watchee
  | .endpointConnected address => s.endpointConnected address
  | .endpointTerminated address => s.removeEndpoint address
  | .watcherStep i => s.watcherStep reg i

/-- The system takes any input. -/
def EndpointStep (reg : LocalRegistry) (s s' : EndpointSystem) : Prop :=
  ∃ i, s' = s.apply reg i

/-! ### What one message does to a watcher -/

namespace EndpointWatcher

variable (reg : LocalRegistry) (w : EndpointWatcher) (msg : WatcherMessage)

@[simp] theorem connected_address : (connected reg w msg).1.address = w.address := by
  cases msg <;> rfl

/-- Only `EndpointTerminatedEvent` changes a connected watcher's behaviour. -/
theorem connected_behavior :
    (connected reg w msg).1.behavior = if msg = .endpointTerminated then .terminated else w.behavior := by
  cases msg <;> simp [connected]

/-- `EndpointTerminatedEvent` is the one message on which a connected watcher stops itself. -/
theorem connected_stop : (connected reg w msg).2.stop = decide (msg = .endpointTerminated) := by
  cases msg <;> simp [connected]

theorem receive_of_connected (h : w.behavior = .connected) :
    w.receive reg msg = connected reg w msg := by
  simp [receive, h]

end EndpointWatcher

namespace WatcherActor

variable (reg : LocalRegistry) (a : WatcherActor) (msg : WatcherMessage)

@[simp] theorem post_state : (a.post msg).state = a.state := by
  unfold post; split <;> rfl

@[simp] theorem post_stopped : (a.post msg).stopped = a.stopped := by
  unfold post; split <;> rfl

theorem post_mailbox (h : a.stopped = false) : (a.post msg).mailbox = a.mailbox ++ [msg] := by
  simp [post, h]

/-- A watcher stops itself only on a message that makes it `terminated`: a terminated watcher
that has not stopped is never left behind. -/
theorem handle_stopped_of_terminated (rest : List WatcherMessage)
    (h : a.state.behavior = .terminated → a.stopped = true)
    (ht : (a.handle reg msg rest).1.state.behavior = .terminated) :
    (a.handle reg msg rest).1.stopped = true := by
  simp only [handle, Bool.or_eq_true] at ht ⊢
  cases hb : a.state.behavior with
  | terminated => exact .inl (h hb)
  | connected =>
    rw [EndpointWatcher.receive_of_connected reg _ msg hb] at ht ⊢
    rw [EndpointWatcher.connected_behavior, hb] at ht
    right
    rw [EndpointWatcher.connected_stop, decide_eq_true_iff]
    by_contra hm
    simp [hm] at ht

end WatcherActor

/-! ### A watch across an endpoint's termination -/

/-- The node's own address is `local`, where the actor `w` lives. -/
def watchRegistry : LocalRegistry :=
  ⟨"local", fun id => id == "w"⟩

def localWatcher : PID := ⟨"local", "w", 0⟩

def remoteWatchee : PID := ⟨"remote", "r", 0⟩

/-- `localWatcher` watches `remoteWatchee`; the endpoint to `remote` terminates and its watcher
reports it; then the remote node's `Terminated` for the watch arrives through the reader. -/
def doubleTerminationTrace : List EndpointInput :=
  [.remoteWatch localWatcher remoteWatchee, .watcherStep 0, .watcherStep 0,
    .endpointTerminated "remote", .watcherStep 0,
    .remoteTerminate localWatcher remoteWatchee, .watcherStep 1, .watcherStep 1]

/-! ### The manager routes to a live watcher

The manager's connections only ever name a watcher that runs, is connected, has the address,
and has not been told that its endpoint terminated.  And a watcher that is `terminated` has
stopped, so the `terminated` behaviour never handles a message.
-/

/-- The watcher the manager routes an address to. -/
structure Routable (a : WatcherActor) (address : String) : Prop where
  running : a.stopped = false
  connected : a.state.behavior = .connected
  address_eq : a.state.address = address
  not_terminating : WatcherMessage.endpointTerminated ∉ a.mailbox

/-- The invariant of the endpoint manager and its watchers. -/
structure EndpointSystem.Invariant (s : EndpointSystem) : Prop where
  routable : ∀ address i, s.connections.lookup address = some i →
    ∃ a, s.watchers[i]? = some a ∧ Routable a address
  stopped_of_terminated : ∀ (i : ℕ) (a : WatcherActor), s.watchers[i]? = some a →
    a.state.behavior = .terminated → a.stopped = true

theorem Routable.post {a : WatcherActor} {address : String} (h : Routable a address)
    {msg : WatcherMessage} (hmsg : msg ≠ .endpointTerminated) : Routable (a.post msg) address where
  running := by simp [h.running]
  connected := by simp [h.connected]
  address_eq := by simp [h.address_eq]
  not_terminating := by
    rw [WatcherActor.post_mailbox a msg h.running, List.mem_append, List.mem_singleton]
    rintro (hm | hm)
    · exact h.not_terminating hm
    · exact hmsg hm.symm

/-- A routable watcher handles a message and stays routable. -/
theorem Routable.handle {a : WatcherActor} {address : String} (h : Routable a address)
    (reg : LocalRegistry) {msg : WatcherMessage} {rest : List WatcherMessage}
    (hm : a.mailbox = msg :: rest) : Routable (a.handle reg msg rest).1 address := by
  have hmsg : msg ≠ .endpointTerminated := fun he =>
    h.not_terminating (hm ▸ he ▸ List.mem_cons_self)
  have hr := EndpointWatcher.receive_of_connected reg a.state msg h.connected
  have hstop : (a.state.receive reg msg).2.stop = false := by
    simp [hr, EndpointWatcher.connected_stop, hmsg]
  refine ⟨?_, ?_, ?_, ?_⟩
  · simp [WatcherActor.handle, h.running, hstop]
  · simp [WatcherActor.handle, hr, EndpointWatcher.connected_behavior, hmsg, h.connected]
  · simp [WatcherActor.handle, hr, h.address_eq]
  · simp only [WatcherActor.handle, hstop]
    exact fun he => h.not_terminating (hm ▸ List.mem_cons_of_mem msg he)

namespace EndpointSystem

variable (reg : LocalRegistry) {s : EndpointSystem}

@[simp] theorem send_connections (i : ℕ) (msg : WatcherMessage) :
    (s.send i msg).connections = s.connections := rfl

/-- Sending to a watcher changes neither its state nor whether it has stopped. -/
theorem stopped_of_terminated_send
    (h : ∀ (j : ℕ) (a : WatcherActor), s.watchers[j]? = some a →
      a.state.behavior = .terminated → a.stopped = true) (i : ℕ) (msg : WatcherMessage) :
    ∀ (j : ℕ) (a : WatcherActor), (s.send i msg).watchers[j]? = some a →
      a.state.behavior = .terminated → a.stopped = true := by
  intro j a' ha'
  simp only [EndpointSystem.send, List.getElem?_modify, Option.map_eq_map,
    Option.map_eq_some_iff] at ha'
  obtain ⟨a, ha, rfl⟩ := ha'
  split
  · simpa using h j a ha
  · exact h j a ha

theorem invariant_new : Invariant new :=
  ⟨by simp [EndpointSystem.new], by simp [EndpointSystem.new]⟩

/-- Sending anything but `EndpointTerminatedEvent` keeps the invariant. -/
theorem Invariant.send (hs : Invariant s) (i : ℕ) {msg : WatcherMessage}
    (hmsg : msg ≠ .endpointTerminated) : Invariant (s.send i msg) := by
  constructor
  · intro address j hj
    obtain ⟨a, ha, hra⟩ := hs.routable address j hj
    by_cases hij : i = j
    · subst hij
      exact ⟨a.post msg, by simp [EndpointSystem.send, ha], hra.post hmsg⟩
    · exact ⟨a, by simp [EndpointSystem.send, List.getElem?_modify_ne _ _ hij, ha], hra⟩
  · exact stopped_of_terminated_send hs.stopped_of_terminated i msg

theorem ensureConnected_of_lookup {address : String} {i : ℕ}
    (h : s.connections.lookup address = some i) : s.ensureConnected address = (i, s) := by
  simp [ensureConnected, h]

theorem ensureConnected_of_lookup_none {address : String}
    (h : s.connections.lookup address = none) :
    s.ensureConnected address = (s.watchers.length, { s with
      connections := s.connections.insert address s.watchers.length
      watchers := s.watchers ++ [⟨EndpointWatcher.new address, [.started], false⟩] }) := by
  simp [ensureConnected, h]

theorem Invariant.ensureConnected (hs : Invariant s) (address : String) :
    Invariant (s.ensureConnected address).2 := by
  cases hl : s.connections.lookup address with
  | some i => rwa [ensureConnected_of_lookup hl]
  | none =>
    rw [ensureConnected_of_lookup_none hl]
    -- the new watcher sits just past the old ones, which keep their indices
    have hnew : Routable ⟨EndpointWatcher.new address, [.started], false⟩ address :=
      ⟨rfl, rfl, rfl, by simp⟩
    constructor
    · intro address' j hj
      by_cases ha : address' = address
      · subst ha
        simp only [AList.lookup_insert, Option.some.injEq] at hj
        exact ⟨_, by simp [← hj], hnew⟩
      · rw [AList.lookup_insert_ne ha] at hj
        obtain ⟨a, haj, hra⟩ := hs.routable address' j hj
        have hlt : j < s.watchers.length := (List.getElem?_eq_some_iff.mp haj).1
        exact ⟨a, by rw [List.getElem?_append_left hlt, haj], hra⟩
    · intro j a haj
      rw [List.getElem?_append] at haj
      split at haj
      · exact hs.stopped_of_terminated j a haj
      · simp only [List.getElem?_singleton] at haj
        split at haj
        · cases haj
          simp [EndpointWatcher.new]
        · cases haj

theorem Invariant.toWatcher (hs : Invariant s) (watchee : PID) {msg : WatcherMessage}
    (hmsg : msg ≠ .endpointTerminated) : Invariant (s.toWatcher watchee msg) :=
  (hs.ensureConnected watchee.address).send _ hmsg

theorem Invariant.removeEndpoint (hs : Invariant s) (address : String) :
    Invariant (s.removeEndpoint address) := by
  unfold EndpointSystem.removeEndpoint
  split
  · rename_i i hi
    obtain ⟨a, ha, hra⟩ := hs.routable address i hi
    constructor
    · intro address' j hj
      have hne : address' ≠ address := by
        rintro rfl
        simp at hj
      rw [send_connections, AList.lookup_erase_ne hne] at hj
      obtain ⟨b, hb, hrb⟩ := hs.routable address' j hj
      -- the terminated endpoint's watcher has its own address, so it is not this one
      have hij : i ≠ j := by
        rintro rfl
        rw [ha, Option.some.injEq] at hb
        exact hne (hrb.address_eq ▸ hb ▸ hra.address_eq)
      exact ⟨b, by simp [EndpointSystem.send, List.getElem?_modify_ne _ _ hij, hb], hrb⟩
    · exact stopped_of_terminated_send hs.stopped_of_terminated i .endpointTerminated
  · exact hs

theorem Invariant.watcherStep (hs : Invariant s) (i : ℕ) : Invariant (s.watcherStep reg i) := by
  unfold EndpointSystem.watcherStep
  split
  · rename_i a ha
    split
    · rename_i msg rest hm
      constructor
      · intro address j hj
        obtain ⟨b, hb, hrb⟩ := hs.routable address j hj
        by_cases hij : i = j
        · subst hij
          rw [ha, Option.some.injEq] at hb
          subst hb
          have hlt : i < s.watchers.length := (List.getElem?_eq_some_iff.mp ha).1
          exact ⟨_, List.getElem?_set_self hlt, hrb.handle reg hm⟩
        · exact ⟨b, by rw [List.getElem?_set_ne hij, hb], hrb⟩
      · intro j b hb
        dsimp only at hb
        by_cases hij : i = j
        · subst hij
          rw [List.getElem?_set_self (List.getElem?_eq_some_iff.mp ha).1, Option.some.injEq] at hb
          subst hb
          exact a.handle_stopped_of_terminated reg msg rest (hs.stopped_of_terminated i a ha)
        · rw [List.getElem?_set_ne hij] at hb
          exact hs.stopped_of_terminated j b hb
    · exact hs
  · exact hs

theorem Invariant.apply (hs : Invariant s) : ∀ i, Invariant (s.apply reg i)
  | .remoteWatch _ watchee => hs.toWatcher watchee (by simp)
  | .remoteUnwatch _ watchee => hs.toWatcher watchee (by simp)
  | .remoteTerminate _ watchee => hs.toWatcher watchee (by simp)
  | .endpointConnected address => (hs.ensureConnected address).send _ (by simp)
  | .endpointTerminated address => hs.removeEndpoint address
  | .watcherStep i => hs.watcherStep reg i

/-- **Routing.** In every reachable state, each connection of the endpoint manager names a
running, connected watcher of its address that has not been told its endpoint terminated, and
no watcher is `terminated` without having stopped. -/
theorem routes_to_live_watcher (s : EndpointSystem)
    (hs : Reachable (· = new) (EndpointStep reg) s) : Invariant s := by
  refine reachable_induction (P := Invariant) ?_ ?_ s hs
  · rintro _ rfl
    exact invariant_new
  · rintro s _ hi ⟨i, rfl⟩
    exact hi.apply reg i

theorem routes_to_live_watcher_doubleTermination :
    Reachable (· = new) (EndpointStep watchRegistry)
        (runFrom (apply watchRegistry) new doubleTerminationTrace) ∧
      Invariant (runFrom (apply watchRegistry) new doubleTerminationTrace) := by
  have h₀ : Reachable (· = new) (EndpointStep watchRegistry) new := Reachable.of_init rfl
  have hs : Reachable (· = new) (EndpointStep watchRegistry)
      (runFrom (apply watchRegistry) new doubleTerminationTrace) :=
    h₀.runFrom (fun s i => ⟨i, rfl⟩) doubleTerminationTrace
  exact ⟨hs, routes_to_live_watcher watchRegistry _ hs⟩

/-! ### A `Terminated` for a watch the endpoint never held -/

/-- The watcher at an index handles the first message of its mailbox. -/
theorem watcherStep_of_mailbox {i : ℕ} {a : WatcherActor} {msg : WatcherMessage}
    {rest : List WatcherMessage} (ha : s.watchers[i]? = some a) (hm : a.mailbox = msg :: rest) :
    s.watcherStep reg i = { s with
      watchers := s.watchers.set i (a.handle reg msg rest).1
      terminatedSent := s.terminatedSent ++ (a.handle reg msg rest).2.terminated
      remoteSent := s.remoteSent ++ (a.handle reg msg rest).2.remote } := by
  simp [EndpointSystem.watcherStep, ha, hm]

/-- A `remoteTerminate` for an address with no endpoint reaches a new watcher, which is `Started`
with no watches and then passes the `Terminated` on to a local watcher all the same. -/
theorem remoteTerminate_of_lookup_none {watcher watchee : PID}
    (hl : s.connections.lookup watchee.address = none) (hw : reg.isLocal watcher.id = true) :
    (runFrom (apply reg) s [.remoteTerminate watcher watchee, .watcherStep s.watchers.length,
      .watcherStep s.watchers.length]).terminatedSent =
      s.terminatedSent ++ [⟨watcher, watchee, .stopped⟩] := by
  set n := s.watchers.length
  -- the new watcher sits at index n with its two messages
  let w := EndpointWatcher.new watchee.address
  have h₁ : (s.remoteTerminate watcher watchee).watchers[n]? =
      some ⟨w, [.started, .remoteTerminate watcher watchee], false⟩ := by
    simp [remoteTerminate, toWatcher, ensureConnected_of_lookup_none hl, EndpointSystem.send,
      WatcherActor.post, n, w]
  have hlen : n < (s.remoteTerminate watcher watchee).watchers.length :=
    (List.getElem?_eq_some_iff.mp h₁).1
  -- it handles `Started`, which clears its (empty) table and sends nothing
  rw [runFrom_cons, runFrom_cons, runFrom_cons, runFrom_nil]
  simp only [apply]
  rw [watcherStep_of_mailbox reg h₁ rfl]
  have h₂ := List.getElem?_set_self (a := (WatcherActor.handle reg
    ⟨w, [.started, .remoteTerminate watcher watchee], false⟩ .started
    [.remoteTerminate watcher watchee]).1) hlen
  rw [watcherStep_of_mailbox reg h₂ rfl]
  simp [WatcherActor.handle, EndpointWatcher.receive, w, EndpointWatcher.new,
    EndpointWatcher.connected, EndpointWatcher.notify, hw, remoteTerminate, toWatcher,
    ensureConnected_of_lookup_none hl, EndpointSystem.send]

end EndpointSystem

/-! ### Told twice -/

theorem terminated_twice_after_endpoint_termination :
    ∃ s, Reachable (· = EndpointSystem.new) (EndpointStep watchRegistry) s ∧
      s.remoteSent = [.watch remoteWatchee localWatcher] ∧
      s.terminatedSent = [⟨localWatcher, remoteWatchee, .addressTerminated⟩,
        ⟨localWatcher, remoteWatchee, .stopped⟩] := by
  have h₀ : Reachable (· = EndpointSystem.new) (EndpointStep watchRegistry) EndpointSystem.new :=
    Reachable.of_init rfl
  -- after the first five inputs the endpoint to `remote` is gone, and its watcher has told `w`
  set s₅ := runFrom (EndpointSystem.apply watchRegistry) EndpointSystem.new
    (doubleTerminationTrace.take 5)
  have hlookup : s₅.connections.lookup remoteWatchee.address = none := by decide
  have hsent : s₅.terminatedSent = [⟨localWatcher, remoteWatchee, .addressTerminated⟩] := by decide
  have hlen : s₅.watchers.length = 1 := by decide
  have hsplit : runFrom (EndpointSystem.apply watchRegistry) EndpointSystem.new
      doubleTerminationTrace = runFrom (EndpointSystem.apply watchRegistry) s₅
        [.remoteTerminate localWatcher remoteWatchee, .watcherStep s₅.watchers.length,
          .watcherStep s₅.watchers.length] := by
    rw [hlen, ← runFrom_append]
    rfl
  -- the remote node's `Terminated` then reaches a new watcher, which passes it on
  refine ⟨_, h₀.runFrom (fun s i => ⟨i, rfl⟩) doubleTerminationTrace, by decide, ?_⟩
  rw [hsplit, EndpointSystem.remoteTerminate_of_lookup_none watchRegistry hlookup rfl, hsent]
  rfl

end ProtoActor.Remote
