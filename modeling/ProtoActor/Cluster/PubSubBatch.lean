import Mathlib.Data.List.Forall2
import Mathlib.Data.List.Nodup
import ProtoActor.Remote.BatchRoundTrip
import ProtoActor.Transition.Run

/-!
# Pub-sub batches on the wire

`cluster/pubsub_batch.go`: a `PubSubBatch` travels as a `PubSubBatchTransport`, whose envelopes
name their type by its number in `TypeNames`.  `Serialize` numbers each type name once, in the
order of first use, and `Deserialize` looks each envelope's number up and deserializes its bytes
with the serializer it names.

What `Serialize` builds names each type once, each of its envelopes carries its own message, and
`Deserialize` reads it back (`PubSubBatch.serialize_spec`).  A transport from the network is
another matter: its numbers are not checked before `TypeNames[TypeId]` and
`serializers[SerializerId]`, which panic exactly at the first envelope whose type number is past
the table or whose serializer is not registered (`deserialize_eq_panic_iff`).
-/

namespace ProtoActor.Cluster

open ProtoActor.Remote ProtoActor.Transition ProtoActor.Collections

variable {μ : Type}

/-- `PubSubEnvelope`; the numbers are `int32` on the wire. -/
structure PubSubEnvelope where
  messageData : List UInt8
  typeId : Nat
  serializerId : Nat
  deriving DecidableEq, Repr

/-- `PubSubBatchTransport`. -/
structure PubSubBatchTransport where
  typeNames : List String
  envelopes : List PubSubEnvelope
  deriving DecidableEq, Repr

/-- `PubSubBatch`. -/
structure PubSubBatch (μ : Type) where
  envelopes : List μ

/-- The number of a type name in `TypeNames`, which gets the name appended if it is not there. -/
def typeIndexOf (typeNames : List String) (typeName : String) : Nat × List String :=
  match typeNames.findIdx? (· == typeName) with
  | some i => (i, typeNames)
  | none => (typeNames.length, typeNames ++ [typeName])

/-- The loop of `PubSubBatch.Serialize`, from the transport built so far: every message with the
serializer `0`, and the first error returned. -/
def serializeFrom (codec : Codec μ) (batch : PubSubBatchTransport) :
    List μ → Except CodecFailure PubSubBatchTransport
  | [] => .ok batch
  | envelope :: envelopes =>
    match serialize codec envelope 0 with
    | .error err => .error err
    | .ok (messageData, typeName) =>
      let (typeIndex, typeNames) := typeIndexOf batch.typeNames typeName
      serializeFrom codec ⟨typeNames, batch.envelopes ++ [⟨messageData, typeIndex, 0⟩]⟩ envelopes

/-- `PubSubBatch.Serialize`. -/
def PubSubBatch.serialize (codec : Codec μ) (b : PubSubBatch μ) :
    Except CodecFailure PubSubBatchTransport :=
  serializeFrom codec ⟨[], []⟩ b.envelopes

/-- The loop body of `PubSubBatchTransport.Deserialize`. -/
def deserializeEnvelope (codec : Codec μ) (typeNames : List String) (envelope : PubSubEnvelope) :
    Except CodecFailure μ :=
  match typeNames[envelope.typeId]? with
  | none => .error .panic
  | some typeName => deserialize codec envelope.messageData typeName envelope.serializerId

/-- `PubSubBatchTransport.Deserialize`. -/
def PubSubBatchTransport.deserialize (codec : Codec μ) (t : PubSubBatchTransport) :
    Except CodecFailure (PubSubBatch μ) :=
  (t.envelopes.mapM (deserializeEnvelope codec t.typeNames)).map PubSubBatch.mk

/-! ### What `Serialize` builds is read back -/

/-- The number `typeIndexOf` gives names the type name, in a table that only grew. -/
theorem typeIndexOf_spec (typeNames : List String) (typeName : String) :
    (typeIndexOf typeNames typeName).2[(typeIndexOf typeNames typeName).1]? = some typeName ∧
      typeNames <+: (typeIndexOf typeNames typeName).2 := by
  unfold typeIndexOf
  split
  · rename_i i hi
    obtain ⟨hlt, heq, -⟩ := List.findIdx?_eq_some_iff_getElem.mp hi
    refine ⟨?_, List.prefix_refl _⟩
    rw [List.getElem?_eq_getElem hlt, beq_iff_eq.mp heq]
  · exact ⟨List.getElem?_concat_length, List.prefix_append _ _⟩

/-- `typeIndexOf` keeps a table without duplicates: it appends only a name it did not find. -/
theorem typeIndexOf_nodup {typeNames : List String} (h : typeNames.Nodup) (typeName : String) :
    (typeIndexOf typeNames typeName).2.Nodup := by
  unfold typeIndexOf
  split
  · exact h
  · rename_i hnone
    have hfresh : typeName ∉ typeNames := fun hmem => by
      have hfalse := List.findIdx?_eq_none_iff.mp hnone typeName hmem
      simp at hfalse
    rw [List.nodup_append_comm, List.singleton_append]
    exact List.nodup_cons.mpr ⟨hfresh, h⟩

/-- An envelope carries the message `m`: its bytes are what the serializer `0` writes for `m`,
and its type number names, in `typeNames`, the type name written with them. -/
def Carries (codec : Codec μ) (typeNames : List String) (m : μ) (env : PubSubEnvelope) : Prop :=
  ∃ typeName, serialize codec m 0 = .ok (env.messageData, typeName) ∧
    typeNames[env.typeId]? = some typeName ∧ env.serializerId = 0

theorem Carries.of_prefix {codec : Codec μ} {names names' : List String} (h : names <+: names')
    {m : μ} {env : PubSubEnvelope} (hc : Carries codec names m env) : Carries codec names' m env := by
  obtain ⟨typeName, hser, hname, hid⟩ := hc
  exact ⟨typeName, hser, Table.getElem?_of_prefix h hname, hid⟩

/-- The loop of `Serialize`: from a table without duplicates whose envelopes carry the messages
done so far, it ends, when the remaining messages serialize, with such a table and envelopes
carrying all the messages. -/
theorem serializeFrom_spec (codec : Codec μ) :
    ∀ (ms : List μ) (batch : PubSubBatchTransport) (done : List μ),
      batch.typeNames.Nodup → List.Forall₂ (Carries codec batch.typeNames) done batch.envelopes →
      (∀ m ∈ ms, ∃ bytes typeName, serialize codec m 0 = .ok (bytes, typeName)) →
      ∃ t, serializeFrom codec batch ms = .ok t ∧ t.typeNames.Nodup ∧
        List.Forall₂ (Carries codec t.typeNames) (done ++ ms) t.envelopes
  | [], batch, done, hnd, hdone, _ => ⟨batch, rfl, hnd, by simpa using hdone⟩
  | m :: ms, batch, done, hnd, hdone, hser => by
    obtain ⟨bytes, typeName, hm⟩ := hser m List.mem_cons_self
    obtain ⟨hname, hprefix⟩ := typeIndexOf_spec batch.typeNames typeName
    -- the new envelope carries `m` in the grown table, and the earlier ones still carry theirs
    have hnew : Carries codec (typeIndexOf batch.typeNames typeName).2 m
        ⟨bytes, (typeIndexOf batch.typeNames typeName).1, 0⟩ := ⟨typeName, hm, hname, rfl⟩
    have hall : List.Forall₂ (Carries codec (typeIndexOf batch.typeNames typeName).2)
        (done ++ [m]) (batch.envelopes ++ [⟨bytes, (typeIndexOf batch.typeNames typeName).1, 0⟩]) :=
      List.rel_append (hdone.imp fun _ _ hc => hc.of_prefix hprefix) (.cons hnew .nil)
    obtain ⟨t, ht, htnd, htall⟩ := serializeFrom_spec codec ms
      ⟨(typeIndexOf batch.typeNames typeName).2,
        batch.envelopes ++ [⟨bytes, (typeIndexOf batch.typeNames typeName).1, 0⟩]⟩
      (done ++ [m]) (typeIndexOf_nodup hnd typeName) hall
      (fun m' hm' => hser m' (List.mem_cons_of_mem m hm'))
    refine ⟨t, ?_, htnd, by simpa using htall⟩
    simp only [serializeFrom, hm]
    exact ht

/-- Envelopes that carry messages which read back decode to those messages, in order. -/
theorem mapM_deserializeEnvelope_of_forall₂ (codec : Codec μ) (names : List String) :
    ∀ {ms : List μ} {envs : List PubSubEnvelope}, List.Forall₂ (Carries codec names) ms envs →
      (∀ m ∈ ms, ∀ bytes typeName, serialize codec m 0 = .ok (bytes, typeName) →
        deserialize codec bytes typeName 0 = .ok m) →
      envs.mapM (deserializeEnvelope codec names) = .ok ms
  | _, _, .nil, _ => rfl
  | m :: ms, env :: envs, .cons hc hrest, hround => by
    obtain ⟨typeName, hser, hname, hid⟩ := hc
    have henv : deserializeEnvelope codec names env = .ok m := by
      rw [deserializeEnvelope, hname]
      show deserialize codec env.messageData typeName env.serializerId = _
      rw [hid, hround m List.mem_cons_self _ _ hser]
    rw [List.mapM_cons, henv, mapM_deserializeEnvelope_of_forall₂ codec names hrest
      fun m' hm' => hround m' (List.mem_cons_of_mem m hm')]
    rfl

/-- **What `Serialize` builds.**  For a batch whose messages each read back through the
serializer `0`, the transport names each type once, each envelope carries its own message, and
`Deserialize` reads the batch back. -/
theorem PubSubBatch.serialize_spec (codec : Codec μ) (b : PubSubBatch μ)
    (hround : ∀ m ∈ b.envelopes, ∃ bytes typeName,
      Remote.serialize codec m 0 = .ok (bytes, typeName) ∧ deserialize codec bytes typeName 0 = .ok m) :
    ∃ t, b.serialize codec = .ok t ∧ t.typeNames.Nodup ∧
      List.Forall₂ (Carries codec t.typeNames) b.envelopes t.envelopes ∧
      t.deserialize codec = .ok b := by
  have hser : ∀ m ∈ b.envelopes, ∃ bytes typeName,
      Remote.serialize codec m 0 = .ok (bytes, typeName) :=
    fun m hm => by
      obtain ⟨bytes, typeName, h, -⟩ := hround m hm
      exact ⟨bytes, typeName, h⟩
  -- what the serializer writes for a message is what `hround` reads back
  have hback : ∀ m ∈ b.envelopes, ∀ bytes typeName, Remote.serialize codec m 0 = .ok (bytes, typeName) →
      deserialize codec bytes typeName 0 = .ok m := by
    intro m hm bytes typeName h
    obtain ⟨bytes', typeName', h', hd⟩ := hround m hm
    rw [h] at h'
    cases h'
    exact hd
  obtain ⟨t, ht, hnd, hall⟩ := serializeFrom_spec codec b.envelopes ⟨[], []⟩ [] List.nodup_nil .nil hser
  refine ⟨t, ht, hnd, hall, ?_⟩
  rw [PubSubBatchTransport.deserialize, mapM_deserializeEnvelope_of_forall₂ codec _ hall hback]
  rfl

/-! ### A transport from the network -/

theorem deserializeEnvelope_eq_panic_iff (codec : Codec μ) (names : List String)
    (env : PubSubEnvelope) :
    deserializeEnvelope codec names env = .error .panic ↔
      names.length ≤ env.typeId ∨ codec.serializers.length ≤ env.serializerId := by
  unfold deserializeEnvelope
  cases hn : names[env.typeId]? with
  | none => simp [List.getElem?_eq_none_iff.mp hn]
  | some typeName =>
    have hlt : env.typeId < names.length := (List.getElem?_eq_some_iff.mp hn).1
    simp only [deserialize_panics_iff, Nat.not_le.mpr hlt, false_or]

/-- **Panics of `Deserialize`.** It panics exactly when it reaches, after envelopes that decode, an
envelope whose type number is past `TypeNames` or whose serializer is not registered. -/
theorem deserialize_eq_panic_iff (codec : Codec μ) (t : PubSubBatchTransport) :
    t.deserialize codec = .error .panic ↔
      ∃ pre env post, t.envelopes = pre ++ env :: post ∧
        (∀ e ∈ pre, ∃ m, deserializeEnvelope codec t.typeNames e = .ok m) ∧
        (t.typeNames.length ≤ env.typeId ∨ codec.serializers.length ≤ env.serializerId) := by
  have hmap : t.deserialize codec = .error .panic ↔
      t.envelopes.mapM (deserializeEnvelope codec t.typeNames) = .error .panic := by
    unfold PubSubBatchTransport.deserialize
    cases t.envelopes.mapM (deserializeEnvelope codec t.typeNames) <;> simp [Except.map]
  rw [hmap, mapM_eq_error_iff]
  simp only [deserializeEnvelope_eq_panic_iff]

/-- A batch from a peer whose one envelope names target number `0` of no targets. -/
def strayTargetBatch : MessageBatch :=
  ⟨["actor.Terminated"], [], [], [⟨none, [], 0, 0, 0, 0, 0, 0⟩]⟩

/-- A transport whose one envelope names type number `0` of no type names. -/
def strayTypeTransport : PubSubBatchTransport :=
  ⟨[], [⟨[], 0, 0⟩]⟩

/-- Whatever the serializers, the reader indexes `Targets` out of range on `strayTargetBatch`
before its unknown-target check, and `Deserialize` indexes `TypeNames` out of range on
`strayTypeTransport`: both panic. -/
theorem unchecked_wire_index_panics (codec : Codec μ) :
    onMessageBatch codec strayTargetBatch = ([], some .indexOutOfRange) ∧
      strayTypeTransport.deserialize codec = .error .panic := by
  have hread : readEnvelope codec strayTargetBatch ⟨none, [], 0, 0, 0, 0, 0, 0⟩ =
      .error .indexOutOfRange :=
    (readEnvelope_eq_indexOutOfRange_iff codec _ _).mpr fun h => by
      simpa [strayTargetBatch] using h.target
  refine ⟨?_, ?_⟩
  · show readEnvelopes codec strayTargetBatch [⟨none, [], 0, 0, 0, 0, 0, 0⟩] = _
    simp [readEnvelopes, hread]
  · exact (deserialize_eq_panic_iff codec _).mpr ⟨[], _, [], rfl, by simp, .inl (Nat.le_refl 0)⟩

end ProtoActor.Cluster
