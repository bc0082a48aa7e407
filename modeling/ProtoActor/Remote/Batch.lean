import ProtoActor.Actor.Pid
import ProtoActor.Collections.Intern

/-!
# Message batches between endpoints

`remote/endpoint_writer.go` (`sendEnvelopes` and its three lookups) and
`remote/endpoint_reader.go` (`onMessageBatch`), with `Serialize`/`Deserialize` of
`remote/serializer.go`.

The writer turns the pending `remoteDeliver`s into one `MessageBatch`: each type name, each target
and each sender is sent once, in `TypeNames`, `Targets` and `Senders`, and an envelope refers to
them by number.  A target or sender is looked up by the key `Address + "/" + Id` and stored with
`RequestId` zero; the envelope carries the request id beside the number.  Sender number zero means
no sender, so a sender's number is its index plus one.  A message that is `RootSerializable` is
first converted to its wire form; a message that fails to serialize is skipped.  An id past the
registered serializers makes `serializers[serializerID]` panic (`CodecFailure.panic`): the writer
uses only id 0, which `init` registers, but the reader takes the id from the peer.

The reader decodes the envelopes in order, sends a `Terminated` to the endpoint manager, another
system message to the local process named by the target's id, and a user message to its target,
wrapped in a `MessageEnvelope` unless it has neither sender nor header.

Messages are values of a type `μ`; the serializers, the root conversions and the type switch of
the reader are the parameters in `Codec`.  Go's lookup maps are `Collections.Table`s.
-/

namespace ProtoActor.Remote

open ProtoActor.Actor ProtoActor.Collections

variable {μ : Type}

/-- What the reader's type switch tells apart. -/
inductive MessageKind
  | terminated (who : Option PID)
  | system
  | user
  deriving DecidableEq, Repr

/-- A registered `Serializer`. -/
structure Serializer (μ : Type) where
  serialize : μ → Except String (List UInt8)
  deserialize : String → List UInt8 → Except String μ
  getTypeName : μ → Except String String

/-- What the writer and the reader know of messages: the registered serializers,
`RootSerializable.Serialize` and `RootSerialized.Deserialize` (`none` for a message that does not
implement the interface), and the kind of a decoded message.  `init` registers the proto
serializer (id 0) and the JSON serializer (id 1) before anything else, and `RegisterSerializer`
only appends. -/
structure Codec (μ : Type) where
  serializers : List (Serializer μ)
  rootSerialize : μ → Option (Except String μ)
  rootDeserialize : μ → Option (Except String μ)
  kind : μ → MessageKind
  registered : 2 ≤ serializers.length

/-- A message's header: the entries of `ToMap()`. -/
structure Header where
  headerData : List (String × String)
  deriving DecidableEq, Repr

/-- `remoteDeliver`, without the `serializerID` that `sendEnvelopes` does not read. -/
structure RemoteDeliver (μ : Type) where
  header : Option Header
  message : μ
  target : PID
  sender : Option PID

/-- What the endpoint writer receives in one batch. -/
inductive WriterMessage (μ : Type)
  | deliver (rd : RemoteDeliver μ)
  | endpointTerminated

/-- `MessageEnvelope`.  The numbers are `int32` on the wire. -/
structure MessageEnvelope where
  messageHeader : Option Header
  messageData : List UInt8
  sender : Nat
  target : Nat
  typeId : Nat
  serializerId : Nat
  targetRequestId : UInt32
  senderRequestId : UInt32
  deriving DecidableEq, Repr

/-- `MessageBatch`. -/
structure MessageBatch where
  typeNames : List String
  targets : List PID
  senders : List PID
  envelopes : List MessageEnvelope
  deriving DecidableEq, Repr

/-! ### Serialization -/

/-- How `Serialize` and `Deserialize` fail: `serializers[serializerID]` out of range panics, and
an error of the serializer is returned. -/
inductive CodecFailure
  | panic
  | error (err : String)
  deriving DecidableEq, Repr

/-- `Serialize`: the bytes and the type name from the serializer `serializerID`. -/
def serialize (codec : Codec μ) (message : μ) (serializerID : Nat) :
    Except CodecFailure (List UInt8 × String) :=
  match codec.serializers[serializerID]? with
  | none => .error .panic
  | some s => do
    let res ← (s.serialize message).mapError .error
    let typeName ← (s.getTypeName message).mapError .error
    pure (res, typeName)

/-- `Deserialize`. -/
def deserialize (codec : Codec μ) (message : List UInt8) (typeName : String) (serializerID : Nat) :
    Except CodecFailure μ :=
  match codec.serializers[serializerID]? with
  | none => .error .panic
  | some s => (s.deserialize typeName message).mapError .error

/-- `Deserialize` panics exactly when no serializer is registered under `serializerID`. -/
theorem deserialize_panics_iff (codec : Codec μ) (message : List UInt8) (typeName : String)
    (serializerID : Nat) :
    deserialize codec message typeName serializerID = .error .panic ↔
      codec.serializers.length ≤ serializerID := by
  unfold deserialize
  cases h : codec.serializers[serializerID]? with
  | none => simp [List.getElem?_eq_none_iff.mp h]
  | some s =>
    have hlt : serializerID < codec.serializers.length := (List.getElem?_eq_some_iff.mp h).1
    cases hd : s.deserialize typeName message <;> simp [hd, Except.mapError, Nat.not_le.mpr hlt]

/-- The writer's root-level conversion: the wire form of a `RootSerializable` message. -/
def toWire (codec : Codec μ) (message : μ) : Except String μ :=
  (codec.rootSerialize message).getD (.ok message)

/-- The reader's root-level conversion: the in-process form of a `RootSerialized` message. -/
def fromWire (codec : Codec μ) (message : μ) : Except String μ :=
  (codec.rootDeserialize message).getD (.ok message)

/-! ### The writer -/

/-- The lookup key of a target or sender. -/
def pidKey (pid : PID) : String :=
  pid.address ++ "/" ++ pid.id

/-- The stored form of a target or sender: the clone with `RequestId` zero. -/
def withoutRequestId (pid : PID) : PID :=
  { pid with requestId := 0 }

/-- `addToLookup`. -/
def addToLookup (t : Table String String) (name : String) : Nat × Table String String :=
  t.add id id name

/-- `addToTargetLookup`. -/
def addToTargetLookup (t : Table String PID) (pid : PID) : Nat × Table String PID :=
  t.add pidKey withoutRequestId pid

/-- `addToSenderLookup`: zero for no sender, else the index plus one. -/
def addToSenderLookup (t : Table String PID) : Option PID → Nat × Table String PID
  | none => (0, t)
  | some pid =>
    let (id, t) := t.add pidKey withoutRequestId pid
    (id + 1, t)

/-- The header an envelope carries: none for a nil or empty header. -/
def envelopeHeader (header : Option Header) : Option Header :=
  header.filter fun h => h.headerData.length != 0

/-- What the writer does to the outside world. -/
inductive WriterEffect (μ : Type)
  | deadLetterResponse (sender target : PID)
  | deadLetterEvent (message : μ) (target : PID)
  | stop
  | send (batch : MessageBatch)

/-- The local variables of `sendEnvelopes`, with the effects so far. -/
structure WriterState (μ : Type) where
  envelopes : List MessageEnvelope
  typeNames : Table String String
  targetNames : Table String PID
  senderNames : Table String PID
  effects : List (WriterEffect μ)

/-- The variables before the loop. -/
def WriterState.empty : WriterState μ :=
  ⟨[], Table.empty, Table.empty, Table.empty, []⟩

/-- The loop body of `sendEnvelopes` for one `remoteDeliver`.  Without a stream the message is
dead-lettered; a message that fails to serialize is skipped. -/
def writeDeliver (codec : Codec μ) (connected : Bool) (s : WriterState μ) (rd : RemoteDeliver μ) :
    WriterState μ :=
  if !connected then
    match rd.sender with
    | some sender => { s with effects := s.effects ++ [.deadLetterResponse sender rd.target] }
    | none => { s with effects := s.effects ++ [.deadLetterEvent rd.message rd.target] }
  else
    match toWire codec rd.message with
    | .error _ => s
    | .ok message =>
      -- `serializerID` is never assigned, so it is `0`, which is always registered
      -- (`Codec.registered`): the failure is the serializer's error, never the index panic
      match serialize codec message 0 with
      | .error _ => s
      | .ok (bytes, typeName) =>
        let (typeID, typeNames) := addToLookup s.typeNames typeName
        let (targetID, targetNames) := addToTargetLookup s.targetNames rd.target
        let (senderID, senderNames) := addToSenderLookup s.senderNames rd.sender
        { s with
          envelopes := s.envelopes ++
            [⟨envelopeHeader rd.header, bytes, senderID, targetID, typeID, 0, rd.target.requestId,
              (rd.sender.map PID.requestId).getD 0⟩]
          typeNames := typeNames
          targetNames := targetNames
          senderNames := senderNames }

/-- The batch of the loop variables. -/
def WriterState.batch (s : WriterState μ) : MessageBatch :=
  ⟨s.typeNames.arr, s.targetNames.arr, s.senderNames.arr, s.envelopes⟩

/-- The loop of `sendEnvelopes` from the variables `s`: an `EndpointTerminatedEvent` stops the
endpoint and returns; at the end a batch is sent if there is any envelope. -/
def writeFrom (codec : Codec μ) (connected : Bool) : WriterState μ → List (WriterMessage μ) →
    List (WriterEffect μ)
  | s, [] => if s.envelopes = [] then s.effects else s.effects ++ [.send s.batch]
  | s, .endpointTerminated :: _ => s.effects ++ [.stop]
  | s, .deliver rd :: msg => writeFrom codec connected (writeDeliver codec connected s rd) msg

/-- `endpointWriter.sendEnvelopes`, with or without a stream. -/
def sendEnvelopes (codec : Codec μ) (connected : Bool) (msg : List (WriterMessage μ)) :
    List (WriterEffect μ) :=
  writeFrom codec connected WriterState.empty msg

/-! ### The reader -/

/-- What the reader does with a decoded message. -/
inductive Delivery (μ : Type)
  | remoteTerminate (watchee : Option PID) (watcher : PID)
  | systemMessage (target : PID) (message : μ)
  | send (target : PID) (message : μ)
  | sendEnvelope (target : PID) (header : Option Header) (message : μ) (sender : Option PID)
  deriving DecidableEq, Repr

/-- Why the reader stops: an index out of range (a panic in Go), or a failed deserialization. -/
inductive ReaderError
  | indexOutOfRange
  | deserialize (err : String)
  deriving DecidableEq, Repr

/-- A failure of `Deserialize` in the reader: its panic is `serializers[serializerID]` out of
range. -/
def ReaderError.ofFailure : CodecFailure → ReaderError
  | .panic => .indexOutOfRange
  | .error err => .deserialize err

/-- The PID with the envelope's request id put back, if it has one. -/
def withRequestId (pid : PID) (requestId : UInt32) : PID :=
  if requestId > 0 then { pid with requestId := requestId } else pid

/-- `deserializeSender`. -/
def deserializeSender (index : Nat) (requestId : UInt32) (arr : List PID) :
    Except ReaderError (Option PID) :=
  if index = 0 then .ok none
  else
    match arr[index - 1]? with
    | none => .error .indexOutOfRange
    | some pid => .ok (some (withRequestId pid requestId))

/-- `deserializeTarget`. -/
def deserializeTarget (index : Nat) (requestId : UInt32) (arr : List PID) :
    Except ReaderError PID :=
  match arr[index]? with
  | none => .error .indexOutOfRange
  | some pid => .ok (withRequestId pid requestId)

/-- Where the reader's type switch sends a decoded message. -/
def route (codec : Codec μ) (target : PID) (sender : Option PID) (header : Option Header)
    (message : μ) : Delivery μ :=
  match codec.kind message with
  | .terminated who => .remoteTerminate who target
  | .system => .systemMessage target message
  | .user =>
    -- the fast path: neither sender nor header
    if sender.isNone && header.isNone then .send target message
    else .sendEnvelope target header message sender

/-- The loop body of `onMessageBatch` for one envelope. -/
def readEnvelope (codec : Codec μ) (b : MessageBatch) (envelope : MessageEnvelope) :
    Except ReaderError (Delivery μ) := do
  let sender ← deserializeSender envelope.sender envelope.senderRequestId b.senders
  let target ← deserializeTarget envelope.target envelope.targetRequestId b.targets
  let typeName ← match b.typeNames[envelope.typeId]? with
    | none => .error .indexOutOfRange
    | some typeName => .ok typeName
  let message ← (deserialize codec envelope.messageData typeName envelope.serializerId).mapError
    ReaderError.ofFailure
  let message ← (fromWire codec message).mapError .deserialize
  pure (route codec target sender envelope.messageHeader message)

/-- The loop of `onMessageBatch`: the deliveries made, and the error that stopped it. -/
def readEnvelopes (codec : Codec μ) (b : MessageBatch) :
    List MessageEnvelope → List (Delivery μ) × Option ReaderError
  | [] => ([], none)
  | envelope :: envelopes =>
    match readEnvelope codec b envelope with
    | .error e => ([], some e)
    | .ok d =>
      let (ds, e) := readEnvelopes codec b envelopes
      (d :: ds, e)

/-- `endpointReader.onMessageBatch`. -/
def onMessageBatch (codec : Codec μ) (b : MessageBatch) : List (Delivery μ) × Option ReaderError :=
  readEnvelopes codec b b.envelopes

end ProtoActor.Remote
