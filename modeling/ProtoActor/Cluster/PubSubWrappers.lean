import ProtoActor.Cluster.PubSubTopic

/-!
# The wrappers of a pub-sub batch

`cluster/pubsub_batch.go`: `DeliverBatchRequest` and `PubSubAutoRespondBatch` travel by the codec
of `PubSubBatch`.  `DeliverBatchRequest.Serialize` serializes its batch and keeps its subscribers
and topic beside the transport; `PubSubAutoRespondBatch.Serialize` serializes its envelopes as a
batch and keeps the table and envelopes of that transport.  Their `Deserialize` undo this.

* `DeliverBatchRequest.serialize_spec`, `PubSubAutoRespondBatch.serialize_spec`: what
  `PubSubBatch.serialize_spec` says of a batch holds through either wrapper.
* `pubSubBatch_codec_round_trip`: for messages that each read back, the batch and both wrappers
  name each type once, carry each message in its own envelope, and read back as they were.
-/

namespace ProtoActor.Cluster

open ProtoActor.Remote

variable {μ : Type}

/-- `DeliverBatchRequestTransport`. -/
structure DeliverBatchRequestTransport where
  subscribers : List SubscriberIdentity
  batch : PubSubBatchTransport
  topic : String
  deriving DecidableEq, Repr

/-- `DeliverBatchRequest.Serialize`. -/
def DeliverBatchRequest.serialize (codec : Codec μ) (d : DeliverBatchRequest μ) :
    Except CodecFailure DeliverBatchRequestTransport := do
  let rs ← d.pubSubBatch.serialize codec
  pure ⟨d.subscribers, rs, d.topic⟩

/-- `DeliverBatchRequestTransport.Deserialize`. -/
def DeliverBatchRequestTransport.deserialize (codec : Codec μ) (t : DeliverBatchRequestTransport) :
    Except CodecFailure (DeliverBatchRequest μ) := do
  let rs ← t.batch.deserialize codec
  pure ⟨t.subscribers, rs, t.topic⟩

/-- `PubSubAutoRespondBatch`. -/
structure PubSubAutoRespondBatch (μ : Type) where
  envelopes : List μ

/-- `PubSubAutoRespondBatchTransport`. -/
structure PubSubAutoRespondBatchTransport where
  typeNames : List String
  envelopes : List PubSubEnvelope
  deriving DecidableEq, Repr

/-- `PubSubAutoRespondBatch.Serialize`. -/
def PubSubAutoRespondBatch.serialize (codec : Codec μ) (b : PubSubAutoRespondBatch μ) :
    Except CodecFailure PubSubAutoRespondBatchTransport := do
  let batch : PubSubBatch μ := ⟨b.envelopes⟩
  let rs ← batch.serialize codec
  pure ⟨rs.typeNames, rs.envelopes⟩

/-- `PubSubAutoRespondBatchTransport.Deserialize`. -/
def PubSubAutoRespondBatchTransport.deserialize (codec : Codec μ)
    (t : PubSubAutoRespondBatchTransport) : Except CodecFailure (PubSubAutoRespondBatch μ) := do
  let batch : PubSubBatchTransport := ⟨t.typeNames, t.envelopes⟩
  let rs ← batch.deserialize codec
  pure ⟨rs.envelopes⟩

/-- Through `DeliverBatchRequest` the batch travels as a batch, with its subscribers and topic. -/
theorem DeliverBatchRequest.serialize_spec (codec : Codec μ) (d : DeliverBatchRequest μ)
    (hround : ∀ m ∈ d.pubSubBatch.envelopes, ∃ bytes typeName,
      Remote.serialize codec m 0 = .ok (bytes, typeName) ∧
        Remote.deserialize codec bytes typeName 0 = .ok m) :
    ∃ t, d.serialize codec = .ok t ∧ t.batch.typeNames.Nodup ∧
      List.Forall₂ (Carries codec t.batch.typeNames) d.pubSubBatch.envelopes t.batch.envelopes ∧
      t.deserialize codec = .ok d := by
  obtain ⟨rs, hrs, hnd, hall, hdec⟩ := PubSubBatch.serialize_spec codec d.pubSubBatch hround
  refine ⟨⟨d.subscribers, rs, d.topic⟩, ?_, hnd, hall, ?_⟩
  · rw [DeliverBatchRequest.serialize, hrs]
    rfl
  · rw [DeliverBatchRequestTransport.deserialize, hdec]
    rfl

/-- Through `PubSubAutoRespondBatch` the envelopes travel as a batch. -/
theorem PubSubAutoRespondBatch.serialize_spec (codec : Codec μ) (b : PubSubAutoRespondBatch μ)
    (hround : ∀ m ∈ b.envelopes, ∃ bytes typeName,
      Remote.serialize codec m 0 = .ok (bytes, typeName) ∧
        Remote.deserialize codec bytes typeName 0 = .ok m) :
    ∃ t, b.serialize codec = .ok t ∧ t.typeNames.Nodup ∧
      List.Forall₂ (Carries codec t.typeNames) b.envelopes t.envelopes ∧
      t.deserialize codec = .ok b := by
  obtain ⟨rs, hrs, hnd, hall, hdec⟩ := PubSubBatch.serialize_spec codec ⟨b.envelopes⟩ hround
  refine ⟨⟨rs.typeNames, rs.envelopes⟩, ?_, hnd, hall, ?_⟩
  · rw [PubSubAutoRespondBatch.serialize]
    simp only [hrs]
    rfl
  · rw [PubSubAutoRespondBatchTransport.deserialize]
    simp only [hdec]
    rfl

theorem pubSubBatch_codec_round_trip (codec : Codec μ) (envelopes : List μ)
    (hround : ∀ m ∈ envelopes, ∃ bytes typeName,
      Remote.serialize codec m 0 = .ok (bytes, typeName) ∧
        Remote.deserialize codec bytes typeName 0 = .ok m)
    (subscribers : List SubscriberIdentity) (topic : String) :
    (∃ t, (PubSubBatch.mk envelopes).serialize codec = .ok t ∧ t.typeNames.Nodup ∧
        List.Forall₂ (Carries codec t.typeNames) envelopes t.envelopes ∧
        t.deserialize codec = .ok ⟨envelopes⟩) ∧
      (∃ t, (PubSubAutoRespondBatch.mk envelopes).serialize codec = .ok t ∧ t.typeNames.Nodup ∧
        List.Forall₂ (Carries codec t.typeNames) envelopes t.envelopes ∧
        t.deserialize codec = .ok ⟨envelopes⟩) ∧
      (∃ t, (DeliverBatchRequest.mk subscribers ⟨envelopes⟩ topic).serialize codec = .ok t ∧
        t.batch.typeNames.Nodup ∧
        List.Forall₂ (Carries codec t.batch.typeNames) envelopes t.batch.envelopes ∧
        t.deserialize codec = .ok ⟨subscribers, ⟨envelopes⟩, topic⟩) :=
  ⟨PubSubBatch.serialize_spec codec ⟨envelopes⟩ hround,
    PubSubAutoRespondBatch.serialize_spec codec ⟨envelopes⟩ hround,
    DeliverBatchRequest.serialize_spec codec ⟨subscribers, ⟨envelopes⟩, topic⟩ hround⟩

/-- A serializer of numbers as that many zero bytes, which names even and odd numbers apart. -/
def paritySerializer : Serializer ℕ :=
  ⟨fun n => .ok (List.replicate n 0), fun _ bytes => .ok bytes.length,
    fun n => .ok (if n % 2 = 0 then "even" else "odd")⟩

/-- A codec of user messages with `paritySerializer` as its serializer `0`. -/
def parityCodec : Codec ℕ :=
  ⟨[paritySerializer, paritySerializer], fun _ => none, fun _ => none, fun _ => .user, by decide⟩

theorem parityCodec_reads_back (m : ℕ) : ∃ bytes typeName,
    Remote.serialize parityCodec m 0 = .ok (bytes, typeName) ∧
      Remote.deserialize parityCodec bytes typeName 0 = .ok m :=
  ⟨List.replicate m 0, if m % 2 = 0 then "even" else "odd", rfl, by
    simp [Remote.deserialize, parityCodec, paritySerializer, Except.mapError]⟩

theorem pubSubBatch_codec_round_trip_parity :
    (∀ m ∈ [2, 1, 4], ∃ bytes typeName,
      Remote.serialize parityCodec m 0 = .ok (bytes, typeName) ∧
        Remote.deserialize parityCodec bytes typeName 0 = .ok m) ∧
    (∃ t, (PubSubBatch.mk [2, 1, 4]).serialize parityCodec = .ok t ∧ t.typeNames.Nodup ∧
        List.Forall₂ (Carries parityCodec t.typeNames) [2, 1, 4] t.envelopes ∧
        t.deserialize parityCodec = .ok ⟨[2, 1, 4]⟩) ∧
      (∃ t, (PubSubAutoRespondBatch.mk [2, 1, 4]).serialize parityCodec = .ok t ∧
        t.typeNames.Nodup ∧ List.Forall₂ (Carries parityCodec t.typeNames) [2, 1, 4] t.envelopes ∧
        t.deserialize parityCodec = .ok ⟨[2, 1, 4]⟩) ∧
      (∃ t, (DeliverBatchRequest.mk [] ⟨[2, 1, 4]⟩ "topic").serialize parityCodec = .ok t ∧
        t.batch.typeNames.Nodup ∧
        List.Forall₂ (Carries parityCodec t.batch.typeNames) [2, 1, 4] t.batch.envelopes ∧
        t.deserialize parityCodec = .ok ⟨[], ⟨[2, 1, 4]⟩, "topic"⟩) :=
  ⟨fun m _ => parityCodec_reads_back m,
    pubSubBatch_codec_round_trip parityCodec [2, 1, 4] (fun m _ => parityCodec_reads_back m) []
      "topic"⟩

end ProtoActor.Cluster
