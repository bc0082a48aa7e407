import Mathlib.Data.List.Forall2
import ProtoActor.Remote.Batch
import ProtoActor.Transition.Run

/-!
# The batch round trip

What the reader makes of a batch the writer built.  `Encodes codec b env rd` says that the
envelope `env` of the batch `b` carries everything of the `remoteDeliver` `rd`: its header if not
empty, its serialized wire form and type name, and the numbers of its target and sender in the
batch's lookups with their request ids beside them.

* `readEnvelope_of_encodes`: when the proto serializer reads back what it writes and the root
  conversions are inverse, an envelope that encodes `rd` is delivered as `rd` itself would be
  (`intendedDelivery`).
* `written_writeDeliver`: the writer's loop body keeps every envelope encoding its
  `remoteDeliver`, provided no two targets (and no two senders) that differ in `Address` or `Id`
  share the lookup key `Address + "/" + Id`.
* `sendEnvelopes_round_trip`: the batch of a list of `remoteDeliver`s is delivered in order, each
  as itself.

The endpoint manager gives each writer the messages of one address, so the targets of a batch
share their `Address` and their keys tell them apart.  The senders need not: without the
condition on their keys the round trip fails (`sender_key_collision_swaps_sender`).

A batch from a peer need not be one the writer built: `readEnvelope_eq_indexOutOfRange_iff` says
which envelopes make the reader index a table out of range.
-/

namespace ProtoActor.Remote

open ProtoActor.Actor ProtoActor.Collections

variable {μ : Type}

/-- The delivery of `rd` as the reader makes it of `rd`'s own fields: its message to its own
target, with its own sender, and with its header when that is not empty. -/
def intendedDelivery (codec : Codec μ) (rd : RemoteDeliver μ) : Delivery μ :=
  route codec rd.target rd.sender (envelopeHeader rd.header) rd.message

/-- The proto serializer reads back what it writes. -/
def RoundTrips (codec : Codec μ) : Prop :=
  ∀ w bytes typeName, serialize codec w 0 = .ok (bytes, typeName) →
    deserialize codec bytes typeName 0 = .ok w

/-- The root conversions are inverse: the reader's conversion undoes the writer's (and leaves a
message the writer did not convert as it is). -/
def RootInverse (codec : Codec μ) : Prop :=
  ∀ m w, toWire codec m = .ok w → fromWire codec w = .ok m

/-- A message the writer can serialize. -/
def Serializes (codec : Codec μ) (m : μ) : Prop :=
  ∃ w bytes typeName, toWire codec m = .ok w ∧ serialize codec w 0 = .ok (bytes, typeName)

/-- PIDs whose lookup keys tell them apart: the same key means the same address and id. -/
def KeysDistinguish (pids : List PID) : Prop :=
  ∀ p ∈ pids, ∀ q ∈ pids, pidKey p = pidKey q → p.address = q.address ∧ p.id = q.id

instance (pids : List PID) : Decidable (KeysDistinguish pids) :=
  inferInstanceAs (Decidable (∀ p ∈ pids, ∀ q ∈ pids, _))

/-- The sender number `n` in the senders `arr` stands for `sender`: zero for none, else one past
where its stored form sits. -/
def SenderAt (arr : List PID) (n : Nat) : Option PID → Prop
  | none => n = 0
  | some s => n ≠ 0 ∧ arr[n - 1]? = some (withoutRequestId s)

/-- An envelope of `b` that carries all of `rd`. -/
structure Encodes (codec : Codec μ) (b : MessageBatch) (env : MessageEnvelope)
    (rd : RemoteDeliver μ) : Prop where
  header_eq : env.messageHeader = envelopeHeader rd.header
  serializerId_eq : env.serializerId = 0
  message : ∃ w typeName, toWire codec rd.message = .ok w ∧
    serialize codec w 0 = .ok (env.messageData, typeName) ∧ b.typeNames[env.typeId]? = some typeName
  target : b.targets[env.target]? = some (withoutRequestId rd.target)
  targetRequestId_eq : env.targetRequestId = rd.target.requestId
  sender : SenderAt b.senders env.sender rd.sender
  senderRequestId_eq : env.senderRequestId = (rd.sender.map PID.requestId).getD 0

/-! ### The reader -/

/-- Putting a PID's own request id back on its stored form gives the PID. -/
@[simp] theorem withRequestId_withoutRequestId (p : PID) :
    withRequestId (withoutRequestId p) p.requestId = p := by
  unfold withRequestId withoutRequestId
  split
  · rfl
  · rename_i h
    -- a request id that is not positive is zero, the value the stored form already has
    have hzero : p.requestId = 0 := by
      simp only [gt_iff_lt, UInt32.lt_iff_toNat_lt, UInt32.toNat_zero, Nat.not_lt,
        Nat.le_zero] at h
      exact UInt32.toNat_inj.mp (by simpa using h)
    cases p
    simp_all

theorem deserializeSender_of_encodes {codec : Codec μ} {b : MessageBatch} {env : MessageEnvelope}
    {rd : RemoteDeliver μ} (h : Encodes codec b env rd) :
    deserializeSender env.sender env.senderRequestId b.senders = .ok rd.sender := by
  have hs := h.sender
  have hreq := h.senderRequestId_eq
  cases hsender : rd.sender with
  | none =>
    rw [hsender, SenderAt] at hs
    simp [deserializeSender, hs]
  | some s =>
    rw [hsender, SenderAt] at hs
    rw [hsender] at hreq
    simp [deserializeSender, hs.1, hs.2, hreq]

theorem deserializeTarget_of_encodes {codec : Codec μ} {b : MessageBatch} {env : MessageEnvelope}
    {rd : RemoteDeliver μ} (h : Encodes codec b env rd) :
    deserializeTarget env.target env.targetRequestId b.targets = .ok rd.target := by
  simp [deserializeTarget, h.target, h.targetRequestId_eq]

/-- **Decoding one envelope.** An envelope that encodes `rd` is delivered as `rd` is meant to be. -/
theorem readEnvelope_of_encodes {codec : Codec μ} (hround : RoundTrips codec)
    (hroot : RootInverse codec) {b : MessageBatch} {env : MessageEnvelope} {rd : RemoteDeliver μ}
    (h : Encodes codec b env rd) : readEnvelope codec b env = .ok (intendedDelivery codec rd) := by
  obtain ⟨w, typeName, hwire, hser, htype⟩ := h.message
  have hdeser : deserialize codec env.messageData typeName env.serializerId = .ok w := by
    rw [h.serializerId_eq]
    exact hround w _ _ hser
  simp [readEnvelope, deserializeSender_of_encodes h, deserializeTarget_of_encodes h, htype,
    hdeser, hroot _ _ hwire, intendedDelivery, h.header_eq, Except.mapError, bind, Except.bind,
    pure, Except.pure]

/-- The reader delivers envelopes that encode `rds`, in order, each as it is meant to be. -/
theorem readEnvelopes_of_forall₂ {codec : Codec μ} (hround : RoundTrips codec)
    (hroot : RootInverse codec) {b : MessageBatch} :
    ∀ {envs : List MessageEnvelope} {rds : List (RemoteDeliver μ)},
      List.Forall₂ (Encodes codec b) envs rds →
        readEnvelopes codec b envs = (rds.map (intendedDelivery codec), none)
  | _, _, .nil => rfl
  | _, _, .cons h hs => by
    simp [readEnvelopes, readEnvelope_of_encodes hround hroot h,
      readEnvelopes_of_forall₂ hround hroot hs]

/-! ### Numbers from the wire

The reader indexes the batch's tables with the envelope's numbers as they came from the peer.
`readEnvelope_eq_indexOutOfRange_iff`: it panics exactly when a number is out of range.
-/

/-- The numbers of an envelope name entries of the batch's tables and a registered serializer. -/
structure MessageBatch.InRange (b : MessageBatch) (codec : Codec μ) (env : MessageEnvelope) :
    Prop where
  sender : env.sender = 0 ∨ env.sender ≤ b.senders.length
  target : env.target < b.targets.length
  typeId : env.typeId < b.typeNames.length
  serializerId : env.serializerId < codec.serializers.length

theorem deserializeSender_eq_error_iff {index : Nat} {requestId : UInt32} {arr : List PID}
    {e : ReaderError} :
    deserializeSender index requestId arr = .error e ↔
      e = .indexOutOfRange ∧ index ≠ 0 ∧ arr.length < index := by
  by_cases h0 : index = 0
  · simp [deserializeSender, h0]
  · cases h : arr[index - 1]? with
    | none =>
      have hlen : arr.length ≤ index - 1 := List.getElem?_eq_none_iff.mp h
      simp only [deserializeSender, h0, h, if_false, Except.error.injEq]
      constructor
      · rintro rfl
        exact ⟨rfl, h0, by omega⟩
      · rintro ⟨rfl, -⟩
        rfl
    | some pid =>
      have hlt : index - 1 < arr.length := (List.getElem?_eq_some_iff.mp h).1
      simp only [deserializeSender, h0, h, if_false, reduceCtorEq, false_iff]
      omega

theorem deserializeTarget_eq_error_iff {index : Nat} {requestId : UInt32} {arr : List PID}
    {e : ReaderError} :
    deserializeTarget index requestId arr = .error e ↔ e = .indexOutOfRange ∧ arr.length ≤ index := by
  cases h : arr[index]? with
  | none =>
    have hlen : arr.length ≤ index := List.getElem?_eq_none_iff.mp h
    simp [deserializeTarget, hlen, eq_comm]
  | some pid =>
    have hlt : index < arr.length := (List.getElem?_eq_some_iff.mp h).1
    simp only [deserializeTarget, h, reduceCtorEq, false_iff, not_and, Nat.not_le]
    exact fun _ => hlt

theorem deserializeSender_inRange_of_eq_ok {index : Nat} {requestId : UInt32} {arr : List PID}
    {pid : Option PID} (h : deserializeSender index requestId arr = .ok pid) :
    index = 0 ∨ index ≤ arr.length := by
  by_contra hc
  have he : deserializeSender index requestId arr = .error .indexOutOfRange :=
    deserializeSender_eq_error_iff.mpr ⟨rfl, by omega, by omega⟩
  rw [h] at he
  cases he

theorem deserializeTarget_inRange_of_eq_ok {index : Nat} {requestId : UInt32} {arr : List PID}
    {pid : PID} (h : deserializeTarget index requestId arr = .ok pid) : index < arr.length := by
  by_contra hc
  have he : deserializeTarget index requestId arr = .error .indexOutOfRange :=
    deserializeTarget_eq_error_iff.mpr ⟨rfl, Nat.not_lt.mp hc⟩
  rw [h] at he
  cases he

/-- **Panics of the reader.** Decoding an envelope hits an index out of range exactly when one of
its numbers is out of the range of its table, or of the registered serializers. -/
theorem readEnvelope_eq_indexOutOfRange_iff (codec : Codec μ) (b : MessageBatch)
    (env : MessageEnvelope) :
    readEnvelope codec b env = .error .indexOutOfRange ↔ ¬ b.InRange codec env := by
  -- the four lookups in program order; past them only the conversions can fail
  cases hs : deserializeSender env.sender env.senderRequestId b.senders with
  | error e =>
    obtain ⟨rfl, hne, hlt⟩ := deserializeSender_eq_error_iff.mp hs
    simp only [readEnvelope, hs, bind, Except.bind, true_iff]
    exact fun h => h.sender.elim hne fun hle => absurd hlt (Nat.not_lt.mpr hle)
  | ok sender =>
    have hsender : env.sender = 0 ∨ env.sender ≤ b.senders.length :=
      deserializeSender_inRange_of_eq_ok hs
    cases ht : deserializeTarget env.target env.targetRequestId b.targets with
    | error e =>
      obtain ⟨rfl, hle⟩ := deserializeTarget_eq_error_iff.mp ht
      simp only [readEnvelope, hs, ht, bind, Except.bind, true_iff]
      exact fun h => absurd h.target (Nat.not_lt.mpr hle)
    | ok target =>
      have htarget : env.target < b.targets.length := deserializeTarget_inRange_of_eq_ok ht
      cases hn : b.typeNames[env.typeId]? with
      | none =>
        have hle : b.typeNames.length ≤ env.typeId := List.getElem?_eq_none_iff.mp hn
        simp only [readEnvelope, hs, ht, hn, bind, Except.bind, true_iff]
        exact fun h => absurd h.typeId (Nat.not_lt.mpr hle)
      | some typeName =>
        have htype : env.typeId < b.typeNames.length := (List.getElem?_eq_some_iff.mp hn).1
        have hpanic := deserialize_panics_iff codec env.messageData typeName env.serializerId
        cases hd : deserialize codec env.messageData typeName env.serializerId with
        | error f =>
          rw [hd] at hpanic
          simp only [readEnvelope, hs, ht, hn, hd, bind, Except.bind, Except.mapError]
          cases f with
          | panic =>
            simp only [ReaderError.ofFailure, true_iff]
            exact fun h => absurd h.serializerId (Nat.not_lt.mpr (hpanic.mp rfl))
          | error err =>
            -- an error of the serializer itself: the lookups were all in range
            have hin : b.InRange codec env :=
              ⟨hsender, htarget, htype, Nat.not_le.mp fun hle => by simpa using hpanic.mpr hle⟩
            simp [ReaderError.ofFailure, hin]
        | ok message =>
          rw [hd] at hpanic
          have hin : b.InRange codec env :=
            ⟨hsender, htarget, htype, Nat.not_le.mp fun hle => by simpa using hpanic.mpr hle⟩
          simp only [readEnvelope, hs, ht, hn, hd, bind, Except.bind, Except.mapError,
            not_true_eq_false, iff_false, hin]
          -- a failed conversion is reported as such, never as an index out of range
          cases fromWire codec message <;> simp [pure, Except.pure]

/-! ### The lookups -/

theorem withoutRequestId_eq_iff {p q : PID} :
    withoutRequestId p = withoutRequestId q ↔ p.address = q.address ∧ p.id = q.id := by
  cases p
  cases q
  simp [withoutRequestId]

/-- A target gets a number where its stored form sits, and the lookup only grows. -/
theorem addToTargetLookup_spec {t : Table String PID} {pids : List PID}
    (ht : t.Built pidKey withoutRequestId pids) (pid : PID)
    (hkeys : KeysDistinguish (pids ++ [pid])) :
    (addToTargetLookup t pid).2.Built pidKey withoutRequestId (pids ++ [pid]) ∧
      t.arr <+: (addToTargetLookup t pid).2.arr ∧
      (addToTargetLookup t pid).2.arr[(addToTargetLookup t pid).1]? = some (withoutRequestId pid) :=
  ⟨ht.add pid, Table.add_arr_prefix t pid,
    ht.get_add pid fun y hy hkey => withoutRequestId_eq_iff.mpr (hkeys y hy pid (by simp) hkey)⟩

@[simp] theorem addToSenderLookup_none (t : Table String PID) : addToSenderLookup t none = (0, t) :=
  rfl

@[simp] theorem addToSenderLookup_some (t : Table String PID) (pid : PID) :
    addToSenderLookup t (some pid) =
      ((addToTargetLookup t pid).1 + 1, (addToTargetLookup t pid).2) :=
  rfl

/-- A sender gets a number one past where its stored form sits; no sender gets zero. -/
theorem addToSenderLookup_spec {t : Table String PID} {pids : List PID}
    (ht : t.Built pidKey withoutRequestId pids) (sender : Option PID)
    (hkeys : KeysDistinguish (pids ++ sender.toList)) :
    (addToSenderLookup t sender).2.Built pidKey withoutRequestId (pids ++ sender.toList) ∧
      t.arr <+: (addToSenderLookup t sender).2.arr ∧
      SenderAt (addToSenderLookup t sender).2.arr (addToSenderLookup t sender).1 sender := by
  cases sender with
  | none => exact ⟨by simpa using ht, List.prefix_refl _, rfl⟩
  | some s =>
    obtain ⟨hbuilt, hprefix, hget⟩ := addToTargetLookup_spec ht s (by simpa using hkeys)
    exact ⟨by simpa using hbuilt, hprefix, Nat.succ_ne_zero _, by simpa using hget⟩

/-! ### The writer -/

/-- What an envelope refers to stays where it is in a batch whose lookups extend. -/
theorem Encodes.mono {codec : Codec μ} {b b' : MessageBatch} (htypes : b.typeNames <+: b'.typeNames)
    (htargets : b.targets <+: b'.targets) (hsenders : b.senders <+: b'.senders)
    {env : MessageEnvelope} {rd : RemoteDeliver μ} (h : Encodes codec b env rd) :
    Encodes codec b' env rd where
  header_eq := h.header_eq
  serializerId_eq := h.serializerId_eq
  message := by
    obtain ⟨w, typeName, hwire, hser, htype⟩ := h.message
    exact ⟨w, typeName, hwire, hser, Table.getElem?_of_prefix htypes htype⟩
  target := Table.getElem?_of_prefix htargets h.target
  targetRequestId_eq := h.targetRequestId_eq
  sender := by
    have hs := h.sender
    cases hsender : rd.sender with
    | none => rw [hsender] at hs; exact hs
    | some s =>
      rw [hsender, SenderAt] at hs
      exact ⟨hs.1, Table.getElem?_of_prefix hsenders hs.2⟩
  senderRequestId_eq := h.senderRequestId_eq

/-- The writer's loop variables after the `remoteDeliver`s `xs`: nothing dead-lettered, the
lookups built from what was added, and one envelope encoding each of `xs`. -/
structure Written (codec : Codec μ) (s : WriterState μ) (xs : List (RemoteDeliver μ)) : Prop where
  effects_nil : s.effects = []
  typeNames_built : ∃ names, s.typeNames.Built id id names
  targets_built : s.targetNames.Built pidKey withoutRequestId (xs.map RemoteDeliver.target)
  senders_built : s.senderNames.Built pidKey withoutRequestId (xs.filterMap RemoteDeliver.sender)
  encodes : List.Forall₂ (Encodes codec s.batch) s.envelopes xs

theorem written_empty (codec : Codec μ) : Written codec WriterState.empty [] where
  effects_nil := rfl
  typeNames_built := ⟨[], Table.built_empty⟩
  targets_built := Table.built_empty
  senders_built := Table.built_empty
  encodes := .nil

/-- The loop body for a message that serializes, with a stream. -/
theorem writeDeliver_of_serialize {codec : Codec μ} (s : WriterState μ) {rd : RemoteDeliver μ}
    {w : μ} {bytes : List UInt8} {typeName : String} (hwire : toWire codec rd.message = .ok w)
    (hser : serialize codec w 0 = .ok (bytes, typeName)) :
    writeDeliver codec true s rd =
      { s with
        envelopes := s.envelopes ++
          [⟨envelopeHeader rd.header, bytes, (addToSenderLookup s.senderNames rd.sender).1,
            (addToTargetLookup s.targetNames rd.target).1, (addToLookup s.typeNames typeName).1, 0,
            rd.target.requestId, (rd.sender.map PID.requestId).getD 0⟩]
        typeNames := (addToLookup s.typeNames typeName).2
        targetNames := (addToTargetLookup s.targetNames rd.target).2
        senderNames := (addToSenderLookup s.senderNames rd.sender).2 } := by
  simp [writeDeliver, hwire, hser]

/-- **The writer's loop body.** A `remoteDeliver` whose message serializes gets an envelope that
encodes it, and the earlier envelopes keep encoding theirs, when the keys of the targets and of
the senders tell them apart. -/
theorem written_writeDeliver {codec : Codec μ} {s : WriterState μ} {xs : List (RemoteDeliver μ)}
    (hs : Written codec s xs) {rd : RemoteDeliver μ} (hrd : Serializes codec rd.message)
    (htargets : KeysDistinguish ((xs ++ [rd]).map RemoteDeliver.target))
    (hsenders : KeysDistinguish ((xs ++ [rd]).filterMap RemoteDeliver.sender)) :
    Written codec (writeDeliver codec true s rd) (xs ++ [rd]) := by
  obtain ⟨w, bytes, typeName, hwire, hser⟩ := hrd
  obtain ⟨names, hnames⟩ := hs.typeNames_built
  have hsendersList : (xs ++ [rd]).filterMap RemoteDeliver.sender =
      xs.filterMap RemoteDeliver.sender ++ rd.sender.toList := by
    rw [List.filterMap_append]
    cases h : rd.sender <;> simp [h]
  obtain ⟨htBuilt, htPrefix, htGet⟩ :=
    addToTargetLookup_spec hs.targets_built rd.target (by simpa using htargets)
  obtain ⟨hsBuilt, hsPrefix, hsGet⟩ :=
    addToSenderLookup_spec hs.senders_built rd.sender (hsendersList ▸ hsenders)
  have hnPrefix : s.typeNames.arr <+: (addToLookup s.typeNames typeName).2.arr :=
    Table.add_arr_prefix s.typeNames typeName
  rw [writeDeliver_of_serialize s hwire hser]
  refine ⟨hs.effects_nil, ⟨_, hnames.add typeName⟩, by simpa using htBuilt,
    hsendersList ▸ hsBuilt, ?_⟩
  refine List.rel_append (hs.encodes.imp fun env rd' h => h.mono hnPrefix htPrefix hsPrefix)
    (.cons ?_ .nil)
  -- the new envelope
  refine ⟨rfl, rfl, ⟨w, typeName, hwire, hser, hnames.get_add typeName fun _ _ h => h⟩, htGet,
    rfl, ?_, rfl⟩
  exact hsGet

theorem KeysDistinguish.mono {pids pids' : List PID} (h : KeysDistinguish pids')
    (hsub : pids ⊆ pids') : KeysDistinguish pids :=
  fun p hp q hq => h p (hsub hp) q (hsub hq)

/-- The writer's loop over `remoteDeliver`s: the loop body on each, then the batch is sent if there
is an envelope. -/
theorem writeFrom_delivers (codec : Codec μ) (connected : Bool) (s : WriterState μ)
    (rds : List (RemoteDeliver μ)) :
    writeFrom codec connected s (rds.map .deliver) =
      let s' := rds.foldl (writeDeliver codec connected) s
      if s'.envelopes = [] then s'.effects else s'.effects ++ [.send s'.batch] := by
  induction rds generalizing s with
  | nil => rfl
  | cons rd rds ih => exact ih (writeDeliver codec connected s rd)

/-- Over the whole loop, every `remoteDeliver` gets an envelope that encodes it. -/
theorem written_foldl {codec : Codec μ} :
    ∀ (rest : List (RemoteDeliver μ)) {s : WriterState μ} {xs : List (RemoteDeliver μ)},
      Written codec s xs → (∀ rd ∈ rest, Serializes codec rd.message) →
      KeysDistinguish ((xs ++ rest).map RemoteDeliver.target) →
      KeysDistinguish ((xs ++ rest).filterMap RemoteDeliver.sender) →
      Written codec (rest.foldl (writeDeliver codec true) s) (xs ++ rest)
  | [], _, _, hs, _, _, _ => by simpa using hs
  | rd :: rest, s, xs, hs, hser, htargets, hsenders => by
    have hsub : xs ++ [rd] ⊆ xs ++ rd :: rest := by
      intro a ha
      rcases List.mem_append.mp ha with ha | ha
      · exact List.mem_append_left _ ha
      · exact List.mem_append_right _ (List.mem_singleton.mp ha ▸ List.mem_cons_self)
    have hstep := written_writeDeliver hs (hser rd List.mem_cons_self)
      (htargets.mono (List.map_subset _ hsub)) (hsenders.mono (List.filterMap_subset _ hsub))
    have hrest := written_foldl rest hstep (fun rd' h => hser rd' (List.mem_cons_of_mem rd h))
      (by simpa using htargets) (by simpa using hsenders)
    simpa using hrest

/-! ### The round trip -/

/-- **The batch round trip.** For `remoteDeliver`s whose messages serialize, when the proto
serializer reads back what it writes, the root conversions are inverse, and the lookup keys tell
the targets apart and the senders apart, `sendEnvelopes` sends one batch (none for no message),
and `onMessageBatch` delivers it in the original order, each message as itself: to its own target
with its request id, with its own sender, with its header when that is not empty. -/
theorem sendEnvelopes_round_trip (codec : Codec μ) (rds : List (RemoteDeliver μ))
    (hser : ∀ rd ∈ rds, Serializes codec rd.message) (hround : RoundTrips codec)
    (hroot : RootInverse codec) (htargets : KeysDistinguish (rds.map RemoteDeliver.target))
    (hsenders : KeysDistinguish (rds.filterMap RemoteDeliver.sender)) :
    ∃ b, sendEnvelopes codec true (rds.map .deliver) = (if rds = [] then [] else [.send b]) ∧
      onMessageBatch codec b = (rds.map (intendedDelivery codec), none) := by
  have hw := written_foldl rds (written_empty codec) hser (by simpa using htargets)
    (by simpa using hsenders)
  simp only [List.nil_append] at hw
  refine ⟨(rds.foldl (writeDeliver codec true) WriterState.empty).batch, ?_,
    readEnvelopes_of_forall₂ hround hroot hw.encodes⟩
  rw [sendEnvelopes, writeFrom_delivers]
  dsimp only
  rw [hw.effects_nil]
  -- there is an envelope exactly when there is a message
  have hlen := hw.encodes.length_eq
  by_cases hrds : rds = []
  · subst hrds
    rfl
  · have henv : (rds.foldl (writeDeliver codec true) WriterState.empty).envelopes ≠ [] := by
      intro he
      rw [he, List.length_nil] at hlen
      exact hrds (List.length_eq_zero_iff.mp hlen.symm)
    simp [hrds, henv]

/-- A serializer of natural numbers as that many zero bytes, under the type name `"nat"`. -/
def natSerializer : Serializer Nat :=
  ⟨fun n => .ok (List.replicate n 0), fun _ bytes => .ok bytes.length, fun _ => .ok "nat"⟩

/-- A codec of user messages that are neither `RootSerializable` nor `RootSerialized`, with
`natSerializer` registered under the ids of the proto and the JSON serializer. -/
def natCodec : Codec Nat :=
  ⟨[natSerializer, natSerializer], fun _ => none, fun _ => none, fun _ => .user, by decide⟩

theorem natCodec_roundTrips : RoundTrips natCodec := by
  intro w bytes typeName h
  simp only [serialize, natCodec, natSerializer, List.getElem?_cons_zero, Except.mapError, bind,
    Except.bind, pure, Except.pure, Except.ok.injEq, Prod.mk.injEq] at h
  obtain ⟨rfl, -⟩ := h
  simp [deserialize, natCodec, natSerializer, Except.mapError]

theorem natCodec_rootInverse : RootInverse natCodec := by
  intro m w h
  simp only [toWire, fromWire, natCodec, Option.getD_none, Except.ok.injEq] at h ⊢
  exact h.symm

/-- Two targets on one node, one with a request id, and one sender. -/
def grainA : PID :=
  ⟨"node1:8090", "partition/a", 0⟩

def grainB : PID :=
  ⟨"node1:8090", "partition/b", 7⟩

def caller : PID :=
  ⟨"node2:8090", "caller", 3⟩

/-- A message without sender or header to `grainA`, and one with both to `grainB`: they come
through as sent. -/
theorem sendEnvelopes_round_trip_on_two_grains :
    let rds : List (RemoteDeliver Nat) :=
      [⟨none, 1, grainA, none⟩, ⟨some ⟨[("trace", "1")]⟩, 2, grainB, some caller⟩]
    (∀ rd ∈ rds, Serializes natCodec rd.message) ∧ RoundTrips natCodec ∧ RootInverse natCodec ∧
      KeysDistinguish (rds.map RemoteDeliver.target) ∧
      KeysDistinguish (rds.filterMap RemoteDeliver.sender) ∧
      ∃ b, sendEnvelopes natCodec true (rds.map .deliver) = (if rds = [] then [] else [.send b]) ∧
        onMessageBatch natCodec b = (rds.map (intendedDelivery natCodec), none) := by
  intro rds
  have hser : ∀ rd ∈ rds, Serializes natCodec rd.message :=
    fun rd _ => ⟨rd.message, List.replicate rd.message 0, "nat", rfl, rfl⟩
  have htargets : KeysDistinguish (rds.map RemoteDeliver.target) := by decide
  have hsenders : KeysDistinguish (rds.filterMap RemoteDeliver.sender) := by decide
  exact ⟨hser, natCodec_roundTrips, natCodec_rootInverse, htargets, hsenders,
    sendEnvelopes_round_trip natCodec rds hser natCodec_roundTrips natCodec_rootInverse htargets
      hsenders⟩

/-- Two senders whose addresses and ids differ but whose keys `Address + "/" + Id` agree. -/
def collidingSender₁ : PID :=
  ⟨"host", "a/b", 0⟩

def collidingSender₂ : PID :=
  ⟨"host/a", "b", 0⟩

/-- One endpoint writer, whose targets all share its address, sends a message from
`collidingSender₁` to `grainA` and one from `collidingSender₂` to `grainB`: with a serializer that
reads back what it writes, the second is delivered with the first one's sender, since the sender
lookup gave both the number of the first. -/
theorem sender_key_collision_swaps_sender :
    RoundTrips natCodec ∧ RootInverse natCodec ∧ grainA.address = grainB.address ∧
      (sendEnvelopes natCodec true
          [.deliver ⟨none, 1, grainA, some collidingSender₁⟩,
            .deliver ⟨none, 2, grainB, some collidingSender₂⟩]).flatMap
        (fun e => match e with
          | .send b => (onMessageBatch natCodec b).1
          | _ => []) =
        [.sendEnvelope grainA none 1 (some collidingSender₁),
          .sendEnvelope grainB none 2 (some collidingSender₁)] :=
  ⟨natCodec_roundTrips, natCodec_rootInverse, rfl, by decide⟩

end ProtoActor.Remote
