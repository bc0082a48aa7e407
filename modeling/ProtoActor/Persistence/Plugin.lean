import Mathlib.Data.PNat.Defs
import ProtoActor.Actor.Pid
import ProtoActor.Transition.Run

/-!
# Event-sourced persistence

`persistence/plugin.go` (the `Mixin` a persistent actor embeds), `persistence/in_memory_provider.go`
and the part of `actor/actor_context.go` that holds the message being handled: `Receive` sets
`messageOrEnvelope`, runs the actor, and releases it to `nil`; `Message`, `Sender` and
`MessageHeader` read it.

`PersistReceive` appends the event and, when the event index is a multiple of the snapshot
interval, re-enters the actor through the context with `RequestSnapshot`; the actor answers with
`PersistSnapshot` of its state, recorded at the index of the event just appended.  Recovery
(`Mixin.init`) restores the last snapshot and replays the events from its index on.

For the actor of `plugin_test.go` that persists an event and then applies it
(`persistThenApply`), every run of spawns, events and stops keeps the store consistent with the
events handled (`Consistent`), and recovery from it gives the fold of all of them, with the event
index at their number (`recovery_reproduces_state`).  But the re-entry through `Receive` releases
the context's message: when `PersistReceive` returns at a snapshot index, `Message`, `Sender` and
`MessageHeader` are gone (`persist_receive_clears_message_context`).
-/

namespace ProtoActor.Actor

/-- `messageHeader`, from keys to values. -/
abbrev MessageHeader := List (String × String)

/-- `MessageEnvelope`. -/
structure MessageEnvelope (μ : Type*) where
  header : Option MessageHeader
  message : μ
  sender : Option PID

/-- What `messageOrEnvelope` holds when it is not `nil`: a bare message or an envelope. -/
inductive MessageOrEnvelope (μ : Type*)
  | message (m : μ)
  | envelope (e : MessageEnvelope μ)

variable {μ : Type*}

/-- `UnwrapEnvelopeMessage`. -/
def unwrapEnvelopeMessage : Option (MessageOrEnvelope μ) → Option μ
  | some (.message m) => some m
  | some (.envelope e) => some e.message
  | none => none

/-- `UnwrapEnvelopeSender`. -/
def unwrapEnvelopeSender : Option (MessageOrEnvelope μ) → Option PID
  | some (.envelope e) => e.sender
  | _ => none

/-- `UnwrapEnvelopeHeader`. -/
def unwrapEnvelopeHeader : Option (MessageOrEnvelope μ) → Option MessageHeader
  | some (.envelope e) => e.header
  | _ => none

end ProtoActor.Actor

namespace ProtoActor.Persistence

open ProtoActor.Actor ProtoActor.Transition

variable {σ ε : Type*}

/-- `entry`: the last snapshot with the event index right after it, and the events. -/
structure Entry (σ ε : Type*) where
  eventIndex : ℕ
  snapshot : Option σ
  events : List ε

/-- `InMemoryProvider`.  An actor name the store does not hold reads as the empty entry that
`loadOrInit` creates for it.  The interval is positive: the source's `%` panics on zero. -/
structure InMemoryProvider (σ ε : Type*) where
  snapshotInterval : ℕ+
  store : String → Entry σ ε

namespace InMemoryProvider

/-- `NewInMemoryProvider`. -/
def new (snapshotInterval : ℕ+) : InMemoryProvider σ ε :=
  ⟨snapshotInterval, fun _ => ⟨0, none, []⟩⟩

/-- Change the entry of one actor. -/
def modifyEntry (p : InMemoryProvider σ ε) (actorName : String) (f : Entry σ ε → Entry σ ε) :
    InMemoryProvider σ ε :=
  { p with store := Function.update p.store actorName (f (p.store actorName)) }

/-- `GetSnapshot`: the snapshot and the event index right after it, if there is one. -/
def getSnapshot (p : InMemoryProvider σ ε) (actorName : String) : Option (σ × ℕ) :=
  (p.store actorName).snapshot.map fun snapshot => (snapshot, (p.store actorName).eventIndex)

/-- `PersistSnapshot`. -/
def persistSnapshot (p : InMemoryProvider σ ε) (actorName : String) (eventIndex : ℕ)
    (snapshot : σ) : InMemoryProvider σ ε :=
  p.modifyEntry actorName fun e => { e with eventIndex, snapshot := some snapshot }

/-- `GetEvents`: the events from `eventIndexStart` up to `eventIndexEnd` (`0` means all of them),
or `none` where the slice expression panics. -/
def getEvents (p : InMemoryProvider σ ε) (actorName : String) (eventIndexStart eventIndexEnd : ℕ) :
    Option (List ε) :=
  let events := (p.store actorName).events
  let eventIndexEnd := if eventIndexEnd = 0 then events.length else eventIndexEnd
  if eventIndexStart ≤ eventIndexEnd ∧ eventIndexEnd ≤ events.length then
    some ((events.take eventIndexEnd).drop eventIndexStart)
  else none

/-- `PersistEvent`: the index is not read, the event is appended. -/
def persistEvent (p : InMemoryProvider σ ε) (actorName : String) (_eventIndex : ℕ) (event : ε) :
    InMemoryProvider σ ε :=
  p.modifyEntry actorName fun e => { e with events := e.events ++ [event] }

end InMemoryProvider

/-- `Mixin`, without the provider state and the receiver it holds: the actor's own provider and
context stand for them. -/
structure Mixin where
  eventIndex : ℕ
  name : String
  recovering : Bool

/-- The messages a persistent actor gets from the plugin, and the events it persists
(`*Message` of `plugin_test.go`). -/
inductive PersistMessage (σ ε : Type*)
  | requestSnapshot
  | snapshot (s : σ)
  | event (e : ε)
  | replayComplete

/-- A persistent actor: the provider it persists to, its context's `messageOrEnvelope`, its
`Mixin` and its own state. -/
structure PersistentActor (σ ε : Type*) where
  provider : InMemoryProvider σ ε
  messageOrEnvelope : Option (MessageOrEnvelope (PersistMessage σ ε))
  mixin : Mixin
  state : σ

namespace PersistentActor

/-- A new incarnation: the producer's state, a zero `Mixin`, no message. -/
def fresh (provider : InMemoryProvider σ ε) (state : σ) : PersistentActor σ ε :=
  ⟨provider, none, ⟨0, "", false⟩, state⟩

/-- `actorContext.Message`. -/
def message (a : PersistentActor σ ε) : Option (PersistMessage σ ε) :=
  unwrapEnvelopeMessage a.messageOrEnvelope

/-- `actorContext.Sender`. -/
def sender (a : PersistentActor σ ε) : Option PID :=
  unwrapEnvelopeSender a.messageOrEnvelope

/-- `actorContext.MessageHeader`. -/
def messageHeader (a : PersistentActor σ ε) : Option MessageHeader :=
  unwrapEnvelopeHeader a.messageOrEnvelope

/-- The actor while it handles `env`. -/
def handling (a : PersistentActor σ ε) (env : MessageEnvelope (PersistMessage σ ε)) :
    PersistentActor σ ε :=
  { a with messageOrEnvelope := some (.envelope env) }

/-- `actorContext.Receive`: the actor's `Receive` (`handler`) handles `env`, which is then
released. -/
def receive (handler : PersistentActor σ ε → PersistentActor σ ε)
    (env : MessageEnvelope (PersistMessage σ ε)) (a : PersistentActor σ ε) : PersistentActor σ ε :=
  { handler (a.handling env) with messageOrEnvelope := none }

/-- `Mixin.PersistReceive`.  The mixin's receiver is the actor's context, so the snapshot request
goes through `Receive` to the actor's own `handler`. -/
def persistReceive (handler : PersistentActor σ ε → PersistentActor σ ε) (message : ε)
    (a : PersistentActor σ ε) : PersistentActor σ ε :=
  let a := { a with provider := a.provider.persistEvent a.mixin.name a.mixin.eventIndex message }
  let a := if a.mixin.eventIndex % (a.provider.snapshotInterval : ℕ) = 0 then
      a.receive handler ⟨none, .requestSnapshot, none⟩
    else a
  { a with mixin.eventIndex := a.mixin.eventIndex + 1 }

/-- `Mixin.PersistSnapshot`. -/
def persistSnapshot (snapshot : σ) (a : PersistentActor σ ε) : PersistentActor σ ε :=
  { a with provider := a.provider.persistSnapshot a.mixin.name a.mixin.eventIndex snapshot }

/-- One event of the replay in `Mixin.init`: the actor gets it, and the index moves on. -/
def replayEvent (handler : PersistentActor σ ε → PersistentActor σ ε) (a : PersistentActor σ ε)
    (e : ε) : PersistentActor σ ε :=
  let a := a.receive handler ⟨none, .event e, none⟩
  { a with mixin.eventIndex := a.mixin.eventIndex + 1 }

/-- `Mixin.init` for the actor named `name` (`Restart` does nothing in the in-memory provider);
`none` where `GetEvents` panics. -/
def init (handler : PersistentActor σ ε → PersistentActor σ ε) (name : String)
    (a : PersistentActor σ ε) : Option (PersistentActor σ ε) :=
  let a := { a with mixin := ⟨0, name, true⟩ }
  let a := match a.provider.getSnapshot name with
    | some (snapshot, eventIndex) =>
      { a with mixin.eventIndex := eventIndex }.receive handler ⟨none, .snapshot snapshot, none⟩
    | none => a
  (a.provider.getEvents name a.mixin.eventIndex 0).map fun events =>
    let a := runFrom (replayEvent handler) a events
    { a with mixin.recovering := false }.receive handler ⟨none, .replayComplete, none⟩

/-! ### The persist-then-apply actor -/

/-- What `myActor.Receive` does with the plugin's messages: it answers `RequestSnapshot` with
`PersistSnapshot` of its state, and restores a snapshot. -/
def restoreReceive (a : PersistentActor σ ε) : PersistentActor σ ε :=
  match a.message with
  | some .requestSnapshot => a.persistSnapshot a.state
  | some (.snapshot s) => { a with state := s }
  | _ => a

/-- `myActor.Receive` with `apply` in place of setting the state: an event is persisted unless
the actor is recovering, and then applied.  The re-entry from `PersistReceive` brings
`RequestSnapshot` only, which `Receive` hands to `restoreReceive`. -/
def persistThenApply (apply : σ → ε → σ) (a : PersistentActor σ ε) : PersistentActor σ ε :=
  match a.message with
  | some (.event e) =>
    let a := if a.mixin.recovering then a else a.persistReceive restoreReceive e
    { a with state := apply a.state e }
  | _ => restoreReceive a

end PersistentActor

/-! ### Incarnations -/

/-- The inputs of a persistent actor's life: it is spawned, handles an event, or is stopped. -/
inductive PersistenceInput (ε : Type*)
  | spawn
  | event (e : ε)
  | stop

/-- The provider with the current incarnation, whether it runs, and the events that running
incarnations have handled. -/
structure PersistenceSystem (σ ε : Type*) where
  actor : PersistentActor σ ε
  running : Bool
  handled : List ε

namespace PersistenceSystem

variable (apply : σ → ε → σ) (s₀ : σ) (name : String)

/-- Nothing persisted yet, no incarnation. -/
def new (snapshotInterval : ℕ+) : PersistenceSystem σ ε :=
  ⟨.fresh (.new snapshotInterval) s₀, false, []⟩

/-- One input.  A spawned incarnation starts from the producer's state `s₀` and recovers; an event
sent to a stopped actor is lost. -/
def step (s : PersistenceSystem σ ε) : PersistenceInput ε → PersistenceSystem σ ε
  | .spawn =>
    if s.running then s else
      match (PersistentActor.fresh s.actor.provider s₀).init (.persistThenApply apply) name with
      | some a => ⟨a, true, s.handled⟩
      | none => s
  | .event e =>
    if s.running then
      ⟨s.actor.receive (.persistThenApply apply) ⟨none, .event e, none⟩, true, s.handled ++ [e]⟩
    else s
  | .stop => { s with running := false }

end PersistenceSystem

/-- The system takes any input. -/
def PersistenceStep (apply : σ → ε → σ) (s₀ : σ) (name : String) (s s' : PersistenceSystem σ ε) :
    Prop :=
  ∃ i, s' = s.step apply s₀ name i

/-! ### The provider -/

namespace InMemoryProvider

variable (p : InMemoryProvider σ ε) (name : String)

@[simp] theorem snapshotInterval_persistEvent (i : ℕ) (e : ε) :
    (p.persistEvent name i e).snapshotInterval = p.snapshotInterval := rfl

@[simp] theorem snapshotInterval_persistSnapshot (i : ℕ) (s : σ) :
    (p.persistSnapshot name i s).snapshotInterval = p.snapshotInterval := rfl

@[simp] theorem store_persistEvent (i : ℕ) (e : ε) :
    (p.persistEvent name i e).store name =
      { p.store name with events := (p.store name).events ++ [e] } := by
  simp [persistEvent, modifyEntry]

@[simp] theorem store_persistSnapshot (i : ℕ) (s : σ) :
    (p.persistSnapshot name i s).store name =
      { p.store name with eventIndex := i, snapshot := some s } := by
  simp [persistSnapshot, modifyEntry]

/-- Up to its end, the slice of `GetEvents` is all the events from the start. -/
theorem getEvents_of_le {start : ℕ} (h : start ≤ (p.store name).events.length) :
    p.getEvents name start 0 = some ((p.store name).events.drop start) := by
  simp [getEvents, h]

end InMemoryProvider

/-! ### What the persist-then-apply actor does with each message -/

namespace PersistentActor

variable (apply : σ → ε → σ) (a : PersistentActor σ ε)

@[simp] theorem receive_messageOrEnvelope (handler : PersistentActor σ ε → PersistentActor σ ε)
    (env : MessageEnvelope (PersistMessage σ ε)) : (a.receive handler env).messageOrEnvelope = none :=
  rfl

@[simp] theorem message_handling (env : MessageEnvelope (PersistMessage σ ε)) :
    (a.handling env).message = some env.message := rfl

@[simp] theorem handling_provider (env : MessageEnvelope (PersistMessage σ ε)) :
    (a.handling env).provider = a.provider := rfl

@[simp] theorem handling_mixin (env : MessageEnvelope (PersistMessage σ ε)) :
    (a.handling env).mixin = a.mixin := rfl

@[simp] theorem handling_state (env : MessageEnvelope (PersistMessage σ ε)) :
    (a.handling env).state = a.state := rfl

theorem receive_snapshot (s : σ) :
    a.receive (persistThenApply apply) ⟨none, .snapshot s, none⟩ =
      { a with messageOrEnvelope := none, state := s } := rfl

theorem receive_replayComplete :
    a.receive (persistThenApply apply) ⟨none, .replayComplete, none⟩ =
      { a with messageOrEnvelope := none } := rfl

/-- While recovering, an event is only applied. -/
theorem receive_event_of_recovering (h : a.mixin.recovering = true) (e : ε) :
    a.receive (persistThenApply apply) ⟨none, .event e, none⟩ =
      { a with messageOrEnvelope := none, state := apply a.state e } := by
  simp [receive, persistThenApply, h]

/-- Otherwise it is persisted, a snapshot of the state before it taken at a multiple of the
interval, and then applied. -/
theorem receive_event_of_running (h : a.mixin.recovering = false) (e : ε) :
    a.receive (persistThenApply apply) ⟨none, .event e, none⟩ =
      ⟨if a.mixin.eventIndex % (a.provider.snapshotInterval : ℕ) = 0 then
          (a.provider.persistEvent a.mixin.name a.mixin.eventIndex e).persistSnapshot
            a.mixin.name a.mixin.eventIndex a.state
        else a.provider.persistEvent a.mixin.name a.mixin.eventIndex e,
        none, { a.mixin with eventIndex := a.mixin.eventIndex + 1 }, apply a.state e⟩ := by
  by_cases h0 : a.mixin.eventIndex % (a.provider.snapshotInterval : ℕ) = 0
  · simp [receive, persistThenApply, h, persistReceive, h0, restoreReceive, persistSnapshot]
  · simp [receive, persistThenApply, h, persistReceive, h0]

/-- The replay of `Mixin.init`: each event is applied and counted. -/
theorem runFrom_replayEvent (es : List ε) {a : PersistentActor σ ε}
    (hr : a.mixin.recovering = true) (hm : a.messageOrEnvelope = none) :
    runFrom (replayEvent (persistThenApply apply)) a es =
      { a with mixin.eventIndex := a.mixin.eventIndex + es.length, state := es.foldl apply a.state } := by
  induction es generalizing a with
  | nil => simp
  | cons e es ih =>
    rw [runFrom_cons, replayEvent, receive_event_of_recovering apply a hr, ih (by exact hr) rfl]
    cases a
    simp only at hm
    simp [hm, Nat.add_assoc, Nat.add_comm 1]

/-! ### The message being handled -/

/-- After `PersistReceive` the context's message is released if the event index was a multiple of
the snapshot interval, where the snapshot request went through `Receive`, and as it was
otherwise. -/
theorem persistReceive_messageOrEnvelope (handler : PersistentActor σ ε → PersistentActor σ ε)
    (e : ε) : (a.persistReceive handler e).messageOrEnvelope =
      if a.mixin.eventIndex % (a.provider.snapshotInterval : ℕ) = 0 then none
      else a.messageOrEnvelope := by
  by_cases h0 : a.mixin.eventIndex % (a.provider.snapshotInterval : ℕ) = 0
  · simp [persistReceive, h0]
  · simp [persistReceive, h0]

/-- **The handled message is lost.**  Whatever the actor and the message it handles, when the
event index is a multiple of the snapshot interval (the first event always is), `PersistReceive`
returns with no `Message`, `Sender` or `MessageHeader`: a `Respond` after it goes to dead
letters. -/
theorem persist_receive_clears_message_context
    (handler : PersistentActor σ ε → PersistentActor σ ε) (a : PersistentActor σ ε)
    (env : MessageEnvelope (PersistMessage σ ε)) (k : ℕ) (e : ε) :
    (({ a with mixin.eventIndex := k * a.provider.snapshotInterval }.handling env).persistReceive
        handler e).message = none ∧
    (({ a with mixin.eventIndex := k * a.provider.snapshotInterval }.handling env).persistReceive
        handler e).sender = none ∧
    (({ a with mixin.eventIndex := k * a.provider.snapshotInterval }.handling env).persistReceive
        handler e).messageHeader = none := by
  have hm := persistReceive_messageOrEnvelope
    ({ a with mixin.eventIndex := k * a.provider.snapshotInterval }.handling env) handler e
  -- the index is a multiple of the interval, so the snapshot request went through `Receive`
  rw [if_pos (by simp)] at hm
  simp [message, sender, messageHeader, hm, unwrapEnvelopeMessage, unwrapEnvelopeSender,
    unwrapEnvelopeHeader]

end PersistentActor

/-! ### Recovery

The store of the actor is consistent with the events handled: it holds exactly them, and its
snapshot is the state before the event at its index.  From a consistent store, `Mixin.init`
recovers the fold of all the events.
-/

section Recovery

variable (apply : σ → ε → σ) (s₀ : σ) (name : String)

/-- The store of `name` holds the events handled, and its snapshot, if any, is the fold of the
events before its index. -/
structure Consistent (p : InMemoryProvider σ ε) (handled : List ε) : Prop where
  events_eq : (p.store name).events = handled
  snapshot_eq : ∀ snapshot, (p.store name).snapshot = some snapshot →
    (p.store name).eventIndex ≤ handled.length ∧
      snapshot = (handled.take (p.store name).eventIndex).foldl apply s₀

theorem consistent_new (n : ℕ+) : Consistent apply s₀ name (.new n) ([] : List ε) :=
  ⟨rfl, by simp [InMemoryProvider.new]⟩

/-- **Recovery.** From a consistent store, `Mixin.init` of a new incarnation restores the fold of
all the events handled, with the event index at their number and the provider untouched. -/
theorem Consistent.init {p : InMemoryProvider σ ε} {handled : List ε}
    (h : Consistent apply s₀ name p handled) :
    (PersistentActor.fresh p s₀).init (.persistThenApply apply) name =
      some ⟨p, none, ⟨handled.length, name, false⟩, handled.foldl apply s₀⟩ := by
  cases hs : (p.store name).snapshot with
  | none =>
    -- no snapshot: every event is replayed from the producer's state
    have hg : p.getSnapshot name = none := by simp [InMemoryProvider.getSnapshot, hs]
    simp only [PersistentActor.init, PersistentActor.fresh, hg]
    rw [p.getEvents_of_le name (Nat.zero_le _), Option.map_some,
      PersistentActor.runFrom_replayEvent apply _ rfl rfl, h.events_eq]
    simp [PersistentActor.receive_replayComplete]
  | some snapshot =>
    -- the snapshot holds the events before its index; the rest are replayed
    obtain ⟨hle, hsnap⟩ := h.snapshot_eq snapshot hs
    have hg : p.getSnapshot name = some (snapshot, (p.store name).eventIndex) := by
      simp [InMemoryProvider.getSnapshot, hs]
    have hle' : (p.store name).eventIndex ≤ (p.store name).events.length := h.events_eq ▸ hle
    simp only [PersistentActor.init, PersistentActor.fresh, hg, PersistentActor.receive_snapshot]
    rw [p.getEvents_of_le name hle', Option.map_some,
      PersistentActor.runFrom_replayEvent apply _ rfl rfl, h.events_eq, hsnap, ← List.foldl_append,
      List.take_append_drop]
    simp [PersistentActor.receive_replayComplete]
    omega

/-- Persisting an event keeps the store consistent; at a multiple of the interval the snapshot
is the state before the event, recorded at its index. -/
theorem Consistent.receive_event {p : InMemoryProvider σ ε} {handled : List ε}
    (h : Consistent apply s₀ name p handled) (e : ε) :
    Consistent apply s₀ name
      ((PersistentActor.receive (.persistThenApply apply) ⟨none, .event e, none⟩
        ⟨p, none, ⟨handled.length, name, false⟩, handled.foldl apply s₀⟩).provider)
      (handled ++ [e]) := by
  rw [PersistentActor.receive_event_of_running apply _ rfl]
  dsimp only
  split
  · constructor
    · simp [h.events_eq]
    · simp
  · constructor
    · simp [h.events_eq]
    · intro snapshot hs
      simp only [InMemoryProvider.store_persistEvent] at hs ⊢
      obtain ⟨hle, hsnap⟩ := h.snapshot_eq snapshot hs
      refine ⟨by simp; omega, ?_⟩
      rw [List.take_append_of_le_length hle, hsnap]

/-! ### Over a whole life -/

/-- The store is consistent with the events handled, and a running incarnation holds their fold
at their number, with nothing in its context. -/
structure PersistenceSystem.Invariant (s : PersistenceSystem σ ε) : Prop where
  consistent : Consistent apply s₀ name s.actor.provider s.handled
  running : s.running = true →
    s.actor = ⟨s.actor.provider, none, ⟨s.handled.length, name, false⟩, s.handled.foldl apply s₀⟩

theorem PersistenceSystem.Invariant.step {s : PersistenceSystem σ ε}
    (h : PersistenceSystem.Invariant apply s₀ name s) (i : PersistenceInput ε) :
    PersistenceSystem.Invariant apply s₀ name (s.step apply s₀ name i) := by
  cases i with
  | spawn =>
    dsimp only [PersistenceSystem.step]
    split
    · exact h
    · rw [h.consistent.init]
      exact ⟨h.consistent, fun _ => rfl⟩
  | event e =>
    dsimp only [PersistenceSystem.step]
    split
    · rename_i hrun
      have ha := h.running hrun
      rw [ha]
      refine ⟨h.consistent.receive_event apply s₀ name e, fun _ => ?_⟩
      rw [PersistentActor.receive_event_of_running apply _ rfl]
      simp [List.foldl_append]
    · exact h
  | stop => exact ⟨h.consistent, fun h => by cases h⟩

theorem PersistenceSystem.invariant_of_reachable (n : ℕ+) (s : PersistenceSystem σ ε)
    (hs : Reachable (· = .new s₀ n) (PersistenceStep apply s₀ name) s) :
    PersistenceSystem.Invariant apply s₀ name s := by
  refine reachable_induction (P := PersistenceSystem.Invariant apply s₀ name) ?_ ?_ s hs
  · rintro _ rfl
    exact ⟨consistent_new apply s₀ name n, fun h => by cases h⟩
  · rintro s _ hi ⟨i, rfl⟩
    exact hi.step apply s₀ name i

/-- **Recovery reproduces the state.**  After any run of spawns, events and stops, the store holds
exactly the events handled, in order; a new incarnation recovers their fold with the event index
at their number; and a running incarnation holds the same. -/
theorem recovery_reproduces_state (apply : σ → ε → σ) (s₀ : σ) (name : String) (n : ℕ+)
    (s : PersistenceSystem σ ε) (hs : Reachable (· = .new s₀ n) (PersistenceStep apply s₀ name) s) :
    (s.actor.provider.store name).events = s.handled ∧
    (PersistentActor.fresh s.actor.provider s₀).init (.persistThenApply apply) name =
      some ⟨s.actor.provider, none, ⟨s.handled.length, name, false⟩, s.handled.foldl apply s₀⟩ ∧
    (s.running = true →
      s.actor.state = s.handled.foldl apply s₀ ∧ s.actor.mixin.eventIndex = s.handled.length) := by
  have h := PersistenceSystem.invariant_of_reachable apply s₀ name n s hs
  refine ⟨h.consistent.events_eq, h.consistent.init, fun hrun => ?_⟩
  have ha := h.running hrun
  exact ⟨congrArg PersistentActor.state ha, congrArg (·.mixin.eventIndex) ha⟩

/-- Each event appends itself to a list. -/
def appendEvent (l : List ℕ) (e : ℕ) : List ℕ :=
  l ++ [e]

/-- Three events with a snapshot every two, a restart, and one more event. -/
def restartRun : List (PersistenceInput ℕ) :=
  [.spawn, .event 1, .event 2, .event 3, .stop, .spawn, .event 4]

def restartSystem : PersistenceSystem (List ℕ) ℕ :=
  runFrom (PersistenceSystem.step appendEvent [] "demo.actor") (.new [] 2) restartRun

theorem recovery_reproduces_state_after_restart :
    Reachable (· = .new [] 2) (PersistenceStep appendEvent [] "demo.actor") restartSystem ∧
      (restartSystem.actor.provider.store "demo.actor").events = restartSystem.handled ∧
      (PersistentActor.fresh restartSystem.actor.provider []).init (.persistThenApply appendEvent)
          "demo.actor" =
        some ⟨restartSystem.actor.provider, none,
          ⟨restartSystem.handled.length, "demo.actor", false⟩,
          restartSystem.handled.foldl appendEvent []⟩ ∧
      (restartSystem.running = true →
        restartSystem.actor.state = restartSystem.handled.foldl appendEvent [] ∧
          restartSystem.actor.mixin.eventIndex = restartSystem.handled.length) := by
  have h₀ : Reachable (· = .new [] 2) (PersistenceStep appendEvent [] "demo.actor")
      (PersistenceSystem.new [] 2) := Reachable.of_init rfl
  have hs : Reachable (· = .new [] 2) (PersistenceStep appendEvent [] "demo.actor")
      restartSystem := h₀.runFrom (fun s i => ⟨i, rfl⟩) restartRun
  exact ⟨hs, recovery_reproduces_state appendEvent [] "demo.actor" 2 _ hs⟩

example : restartSystem.actor.state = [1, 2, 3, 4] ∧
    (restartSystem.actor.provider.store "demo.actor").eventIndex = 2 := by decide

end Recovery

end ProtoActor.Persistence
