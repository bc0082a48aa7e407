import ProtoActor.Cluster.PubSubWrappers
import ProtoActor.Cluster.GrainCall

/-!
# The delivery actor

`cluster/pubsub_delivery.go`.  On a `DeliverBatchRequest` the member's delivery actor wraps the
batch's envelopes in a `PubSubAutoRespondBatch` and, for each subscriber of the request in turn,
requests it from the subscriber: from its PID, or from the PID `cluster.Get` gives for its
cluster identity; a subscriber with no identity gets no request.  It then waits on each future
in the same order, gives the subscriber a `DeliveryStatus` by the error the future returned, and
reports those not delivered to the topic in one `NotifyAboutFailingSubscribersRequest`, sent only
when there is one.  The error a subscriber's future returns is the outside world's:
`outcome s`.  The throttled logging of failures is left out.

When `cluster.Get` finds no PID, `RequestFuture` is called with a nil PID and the handler stops
with a nil dereference: the requests before it are sent, and nothing is reported
(`receive_panicked_iff`).

* `publish_round_unsubscribes_dead_letters`: a topic publishes a batch, the delivery actor at
  each address handles its request, and their reports come back to the topic in any order.  The
  topic then keeps exactly its subscribers but those with a PID whose request ended in a dead
  letter, `actor.ErrDeadLetter` or `remote.ErrDeadLetter`: a subscriber by cluster identity stays
  whatever its request returned, and so does one whose request timed out.
-/

namespace ProtoActor.Cluster

open ProtoActor.Actor ProtoActor.Transition

variable {μ : Type}

/-- The status of a delivery whose future returned the error `err`, if any. -/
def deliveryStatus : Option RequestError → DeliveryStatus
  | none => .delivered
  | some .timeout => .timeout
  | some .deadLetter => .subscriberNoLongerReachable
  | some .other => .otherError

/-- `DeliverBatch`: the PID the batch is requested from, `some none` for a subscriber with no
identity (a nil future), and `none` where `cluster.Get` gives no PID for a cluster identity and
`RequestFuture` dereferences it. -/
def deliverBatch (clusterGet : ClusterIdentity → Option PID) (s : SubscriberIdentity) :
    Option (Option PID) :=
  match s.getPid with
  -- `DeliverToPid`
  | some pid => some (some pid)
  | none =>
    match s.getClusterIdentity with
    -- `DeliverToClusterIdentity`
    | some ci => (clusterGet ci).map some
    | none => some none

/-- The first loop of `Receive`: the futures, with their subscribers, in order, and whether it
stopped at a nil PID. -/
def futureList (clusterGet : ClusterIdentity → Option PID) :
    List SubscriberIdentity → List (PID × SubscriberIdentity) × Bool
  | [] => ([], false)
  | identity :: siList =>
    match deliverBatch clusterGet identity with
    | none => ([], true)
    | some none => futureList clusterGet siList
    | some (some pid) =>
      let r := futureList clusterGet siList
      ((pid, identity) :: r.1, r.2)

/-- The report of a subscriber's delivery, if it was not delivered. -/
def deliveryReport (outcome : SubscriberIdentity → Option RequestError) (s : SubscriberIdentity) :
    Option SubscriberDeliveryReport :=
  if deliveryStatus (outcome s) ≠ .delivered then some ⟨s, deliveryStatus (outcome s)⟩ else none

/-- What `Receive` of a `DeliverBatchRequest` does: the batch it requests from each PID, in order;
the reports it sends the topic, if it sends them; and whether it stopped at a nil PID. -/
structure DeliveryOutput (μ : Type) where
  requests : List (PID × PubSubAutoRespondBatch μ)
  notify : Option (List SubscriberDeliveryReport)
  panicked : Bool

/-- `PubSubMemberDeliveryActor.Receive` of a `DeliverBatchRequest`. -/
def receive (clusterGet : ClusterIdentity → Option PID)
    (outcome : SubscriberIdentity → Option RequestError) (batch : DeliverBatchRequest μ) :
    DeliveryOutput μ :=
  let topicBatch : PubSubAutoRespondBatch μ := ⟨batch.pubSubBatch.envelopes⟩
  let r := futureList clusterGet batch.subscribers
  let invalidDeliveries := r.1.filterMap fun f => deliveryReport outcome f.2
  { requests := r.1.map fun f => (f.1, topicBatch)
    notify := if r.2 then none
      else if invalidDeliveries.length > 0 then some invalidDeliveries else none
    panicked := r.2 }

/-! ### One request -/

/-- A subscriber whose request makes the loop stop: a cluster identity `cluster.Get` finds no PID
for. -/
def NilTarget (clusterGet : ClusterIdentity → Option PID) (s : SubscriberIdentity) : Prop :=
  deliverBatch clusterGet s = none

theorem futureList_panicked_iff (clusterGet : ClusterIdentity → Option PID)
    (siList : List SubscriberIdentity) :
    (futureList clusterGet siList).2 = true ↔ ∃ s ∈ siList, NilTarget clusterGet s := by
  induction siList with
  | nil => simp [futureList]
  | cons identity siList ih =>
    unfold futureList
    cases h : deliverBatch clusterGet identity with
    | none => simp [NilTarget, h]
    | some target =>
      cases target <;> simp [ih, NilTarget, h]

/-- Without a stop, the loop makes a future for every subscriber with an identity, in order. -/
theorem mem_futureList {clusterGet : ClusterIdentity → Option PID}
    {siList : List SubscriberIdentity} (h : (futureList clusterGet siList).2 = false)
    (s : SubscriberIdentity) :
    s ∈ (futureList clusterGet siList).1.map Prod.snd ↔
      s ∈ siList ∧ ∃ pid, deliverBatch clusterGet s = some (some pid) := by
  induction siList with
  | nil => simp [futureList]
  | cons identity siList ih =>
    unfold futureList at h ⊢
    cases hd : deliverBatch clusterGet identity with
    | none => simp [hd] at h
    | some target =>
      cases target with
      | none =>
        -- no future for a subscriber without an identity
        simp only [hd] at h ⊢
        rw [ih h]
        constructor
        · rintro ⟨hs, pid, hpid⟩
          exact ⟨List.mem_cons_of_mem _ hs, pid, hpid⟩
        · rintro ⟨hs, pid, hpid⟩
          rcases List.mem_cons.mp hs with rfl | hs
          · rw [hd] at hpid
            cases hpid
          · exact ⟨hs, pid, hpid⟩
      | some pid =>
        simp only [hd] at h ⊢
        simp only [List.map_cons, List.mem_cons]
        rw [ih h]
        constructor
        · rintro (rfl | ⟨hs, pid', hpid⟩)
          · exact ⟨.inl rfl, pid, hd⟩
          · exact ⟨.inr hs, pid', hpid⟩
        · rintro ⟨hs | hs, pid', hpid⟩
          · exact .inl hs
          · exact .inr ⟨hs, pid', hpid⟩

/-- **The nil-PID stop.** The delivery actor stops, reporting nothing, exactly when a subscriber
of the request is a cluster identity that `cluster.Get` finds no PID for. -/
theorem receive_panicked_iff (clusterGet : ClusterIdentity → Option PID)
    (outcome : SubscriberIdentity → Option RequestError) (batch : DeliverBatchRequest μ) :
    (receive clusterGet outcome batch).panicked = true ↔
      ∃ s ∈ batch.subscribers, NilTarget clusterGet s :=
  futureList_panicked_iff clusterGet batch.subscribers

/-- Without a stop, the subscribers the actor reports no longer reachable are those of the
request with an identity whose future returned a dead letter. -/
theorem reported_unreachable_iff {clusterGet : ClusterIdentity → Option PID}
    {outcome : SubscriberIdentity → Option RequestError} {batch : DeliverBatchRequest μ}
    (h : (receive clusterGet outcome batch).panicked = false) (s : SubscriberIdentity) :
    (∃ reports, (receive clusterGet outcome batch).notify = some reports ∧
        ∃ r ∈ reports, r.status = .subscriberNoLongerReachable ∧ r.subscriber = s) ↔
      s ∈ batch.subscribers ∧ (∃ pid, deliverBatch clusterGet s = some (some pid)) ∧
        deliveryStatus (outcome s) = .subscriberNoLongerReachable := by
  simp only [receive] at h ⊢
  simp only [h, Bool.false_eq_true, if_false]
  -- a report is in the list exactly when it names such a subscriber
  have hmem : (∃ r ∈ (futureList clusterGet batch.subscribers).1.filterMap
        (fun f => deliveryReport outcome f.2),
        r.status = .subscriberNoLongerReachable ∧ r.subscriber = s) ↔
      s ∈ batch.subscribers ∧ (∃ pid, deliverBatch clusterGet s = some (some pid)) ∧
        deliveryStatus (outcome s) = .subscriberNoLongerReachable := by
    rw [← and_assoc, ← mem_futureList h s]
    simp only [List.mem_filterMap, List.mem_map, deliveryReport]
    constructor
    · rintro ⟨r, ⟨f, hf, hr⟩, hstatus, rfl⟩
      split at hr
      · cases hr
        exact ⟨⟨f, hf, rfl⟩, hstatus⟩
      · cases hr
    · rintro ⟨⟨f, hf, rfl⟩, hstatus⟩
      refine ⟨⟨f.2, deliveryStatus (outcome f.2)⟩, ⟨f, hf, ?_⟩, hstatus, rfl⟩
      rw [if_pos (by rw [hstatus]; decide)]
  split
  · rename_i hpos
    simp only [Option.some.injEq, exists_eq_left']
    exact hmem
  · rename_i hzero
    have hnil : (futureList clusterGet batch.subscribers).1.filterMap
        (fun f => deliveryReport outcome f.2) = [] :=
      List.eq_nil_of_length_eq_zero (by omega)
    rw [hnil] at hmem
    simp only [reduceCtorEq, false_and, exists_false, false_iff]
    intro hs
    simpa using hmem.mpr hs

theorem deliverBatch_of_getPid (clusterGet : ClusterIdentity → Option PID) {s : SubscriberIdentity}
    {pid : PID} (h : s.getPid = some pid) : deliverBatch clusterGet s = some (some pid) := by
  simp only [deliverBatch, h]

/-- A delivery actor does not stop on a request whose subscribers all resolved where the topic
runs, when each cluster identity resolved there still resolves where the actor runs. -/
theorem receive_panicked_eq_false {get clusterGet : ClusterIdentity → Option PID}
    (hstable : ∀ ci pid, get ci = some pid → (clusterGet ci).isSome)
    (outcome : SubscriberIdentity → Option RequestError) {batch : DeliverBatchRequest μ}
    (hresolved : ∀ s ∈ batch.subscribers, ∃ pid, getPID get s = some pid) :
    (receive clusterGet outcome batch).panicked = false := by
  rw [← Bool.not_eq_true, receive_panicked_iff]
  rintro ⟨s, hs, hnil⟩
  obtain ⟨pid, hpid⟩ := hresolved s hs
  -- only a cluster identity can be a nil target
  cases s with
  | unset => cases hpid
  | pid p => cases hnil
  | clusterIdentity ci =>
    have hci : clusterGet ci = none := by
      simpa [NilTarget, deliverBatch, SubscriberIdentity.getPid,
        SubscriberIdentity.getClusterIdentity] using hnil
    have hsome := hstable ci pid hpid
    rw [hci] at hsome
    cases hsome

/-- What the delivery actors of the requests `sent` report no longer reachable, over all their
reports: the subscribers of some request with a PID to ask and a dead letter for an answer. -/
theorem reported_unreachable_of_requests {clusterGet : ClusterIdentity → Option PID}
    {outcome : SubscriberIdentity → Option RequestError} {sent : List (PID × DeliverBatchRequest μ)}
    (hnopanic : ∀ d ∈ sent, (receive clusterGet outcome d.2).panicked = false)
    (s : SubscriberIdentity) :
    (∃ reports ∈ (sent.map fun d => receive clusterGet outcome d.2).filterMap DeliveryOutput.notify,
        ∃ r ∈ reports, r.status = .subscriberNoLongerReachable ∧ r.subscriber = s) ↔
      ∃ d ∈ sent, s ∈ d.2.subscribers ∧ (∃ pid, deliverBatch clusterGet s = some (some pid)) ∧
        deliveryStatus (outcome s) = .subscriberNoLongerReachable := by
  simp only [List.filterMap_map, List.mem_filterMap, Function.comp_apply]
  constructor
  · rintro ⟨reports, ⟨d, hd, hn⟩, hr⟩
    exact ⟨d, hd, (reported_unreachable_iff (hnopanic d hd) s).mp ⟨reports, hn, hr⟩⟩
  · rintro ⟨d, hd, hsd⟩
    obtain ⟨reports, hn, hr⟩ := (reported_unreachable_iff (hnopanic d hd) s).mpr hsd
    exact ⟨reports, ⟨d, hd, hn⟩, hr⟩

/-! ### The topic's side -/

namespace TopicActor

variable {t : TopicActor}

theorem keyed_unsubscribeUnreachablePidSubscribers (hkeyed : Keyed t.subscribers)
    (reports : List SubscriberDeliveryReport) :
    Keyed (t.unsubscribeUnreachablePidSubscribers reports).subscribers := fun k s hs =>
  hkeyed k s ((lookup_unsubscribeUnreachablePidSubscribers hkeyed reports k s).mp hs).1

/-- After a `NotifyAboutFailingSubscribersRequest` for each list of reports in turn, the topic
keeps a subscriber exactly when no report says it is no longer reachable at its PID. -/
theorem lookup_runFrom_unsubscribeUnreachablePidSubscribers
    (msgs : List (List SubscriberDeliveryReport)) (hkeyed : Keyed t.subscribers)
    (k : SubscribeIdentityStruct) (s : SubscriberIdentity) :
    (runFrom (fun t reports => t.unsubscribeUnreachablePidSubscribers reports) t
        msgs).subscribers.lookup k = some s ↔
      t.subscribers.lookup k = some s ∧
        ¬∃ reports ∈ msgs, ∃ r ∈ reports, r.status = .subscriberNoLongerReachable ∧
          r.subscriber = s ∧ s.getPid.isSome := by
  induction msgs generalizing t with
  | nil => simp
  | cons reports msgs ih =>
    -- the first list of reports, then the others from the topic it leaves
    rw [runFrom_cons, ih (keyed_unsubscribeUnreachablePidSubscribers hkeyed reports),
      lookup_unsubscribeUnreachablePidSubscribers hkeyed]
    simp only [List.mem_cons, exists_eq_or_imp, not_or, and_assoc]

end TopicActor

/-! ### A publish round -/

/-- **A publish round.** A topic publishes a batch; the delivery actor at each address handles
the request sent there, where every cluster identity the topic resolved still resolves; and
their reports come back to the topic in any order.  The topic then keeps exactly its subscribers
but those with a PID whose request ended in a dead letter. -/
theorem publish_round_unsubscribes_dead_letters (get clusterGet : ClusterIdentity → Option PID)
    (hstable : ∀ ci pid, get ci = some pid → (clusterGet ci).isSome)
    (outcome : SubscriberIdentity → Option RequestError) (t : TopicActor)
    (hkeyed : Keyed t.subscribers) (batch : PubSubBatch μ)
    (msgs : List (List SubscriberDeliveryReport))
    (hmsgs : msgs.Perm (((t.onPubSubBatch get batch).sent.map fun d =>
      receive clusterGet outcome d.2).filterMap DeliveryOutput.notify))
    (k : SubscribeIdentityStruct) (s : SubscriberIdentity) :
    (runFrom (fun t reports => t.unsubscribeUnreachablePidSubscribers reports) t
        msgs).subscribers.lookup k = some s ↔
      t.subscribers.lookup k = some s ∧
        ¬(s.getPid.isSome ∧ deliveryStatus (outcome s) = .subscriberNoLongerReachable) := by
  rw [TopicActor.lookup_runFrom_unsubscribeUnreachablePidSubscribers msgs hkeyed]
  refine and_congr_right fun hs => not_congr ?_
  have hdel := onPubSubBatch_delivers hkeyed get batch
  -- every request holds subscribers that resolved, so no delivery actor stops
  have hnopanic : ∀ d ∈ (t.onPubSubBatch get batch).sent,
      (receive clusterGet outcome d.2).panicked = false := by
    intro d hd
    refine receive_panicked_eq_false hstable outcome fun s' hs' => ?_
    obtain ⟨-, pid, hpid, -⟩ := (hdel.mem_request d hd s').mp hs'
    exact ⟨pid, hpid⟩
  constructor
  · rintro ⟨reports, hm, r, hr, hstatus, rfl, hpid⟩
    obtain ⟨d, -, -, -, hdead⟩ := (reported_unreachable_of_requests hnopanic r.subscriber).mp
      ⟨reports, hmsgs.mem_iff.mp hm, r, hr, hstatus, rfl⟩
    exact ⟨hpid, hdead⟩
  · rintro ⟨hpid, hdead⟩
    obtain ⟨pid, hpid'⟩ := Option.isSome_iff_exists.mp hpid
    -- `s` is in the request to the delivery actor at its PID's address
    have hval : s ∈ values t.subscribers := mem_values.mpr ⟨k, hs⟩
    have hget : getPID get s = some pid := by simp only [getPID, hpid']
    obtain ⟨d, hd, haddr⟩ : ∃ d ∈ (t.onPubSubBatch get batch).sent, d.1.address = pid.address :=
      List.mem_map.mp ((hdel.mem_addresses pid.address).mpr ⟨s, hval, pid, hget, rfl⟩)
    have hsd : s ∈ d.2.subscribers := (hdel.mem_request d hd s).mpr ⟨hval, pid, hget, haddr.symm⟩
    obtain ⟨reports, hm, r, hr, hstatus, hsub⟩ := (reported_unreachable_of_requests hnopanic s).mpr
      ⟨d, hd, hsd, ⟨pid, deliverBatch_of_getPid clusterGet hpid'⟩, hdead⟩
    exact ⟨reports, hmsgs.mem_iff.mpr hm, r, hr, hstatus, hsub, hpid⟩

/-- Two subscribers by PID at one member, and one by cluster identity. -/
def roundSubscriptions : List (TopicMessage Unit) :=
  [.subscribeRequest (.pid ⟨"10.0.0.1:8090", "a", 0⟩),
    .subscribeRequest (.pid ⟨"10.0.0.1:8090", "b", 0⟩),
    .subscribeRequest (.clusterIdentity ⟨"user", "kind"⟩)]

/-- The topic after `roundSubscriptions`. -/
def roundTopic : TopicActor :=
  (runTopic (fun _ => none) "news" roundSubscriptions).getD ⟨"news", ∅, []⟩

/-- The request to `a` ends in a dead letter, the others are delivered. -/
def deadLetterAtA (s : SubscriberIdentity) : Option RequestError :=
  if s = .pid ⟨"10.0.0.1:8090", "a", 0⟩ then some .deadLetter else none

/-- With no cluster identity resolving, the round takes `a` off the topic. -/
theorem publish_round_unsubscribes_dead_letters_at_a :
    (∀ ci pid, (fun _ => none : ClusterIdentity → Option PID) ci = some pid →
        ((fun _ => none : ClusterIdentity → Option PID) ci).isSome) ∧
      Keyed roundTopic.subscribers ∧
      ((runFrom (fun t reports => t.unsubscribeUnreachablePidSubscribers reports) roundTopic
          (((roundTopic.onPubSubBatch (fun _ => none) (⟨[()]⟩ : PubSubBatch Unit)).sent.map fun d =>
            receive (fun _ => none) deadLetterAtA d.2).filterMap
              DeliveryOutput.notify)).subscribers.lookup
          ⟨true, newPidStruct ⟨"10.0.0.1:8090", "a", 0⟩, {}⟩ =
            some (.pid ⟨"10.0.0.1:8090", "a", 0⟩) ↔
        roundTopic.subscribers.lookup ⟨true, newPidStruct ⟨"10.0.0.1:8090", "a", 0⟩, {}⟩ =
            some (.pid ⟨"10.0.0.1:8090", "a", 0⟩) ∧
          ¬((SubscriberIdentity.pid ⟨"10.0.0.1:8090", "a", 0⟩).getPid.isSome ∧
            deliveryStatus (deadLetterAtA (.pid ⟨"10.0.0.1:8090", "a", 0⟩)) =
              .subscriberNoLongerReachable)) :=
  have hstable : ∀ ci pid, (fun _ => none : ClusterIdentity → Option PID) ci = some pid →
      ((fun _ => none : ClusterIdentity → Option PID) ci).isSome := fun _ _ h => nomatch h
  have hkeyed : Keyed roundTopic.subscribers :=
    (runInv_runTopic (fun _ => none) "news" roundSubscriptions (t := roundTopic) rfl).keyed
  ⟨hstable, hkeyed, publish_round_unsubscribes_dead_letters (fun _ => none) (fun _ => none) hstable
    deadLetterAtA roundTopic hkeyed ⟨[()]⟩ _ (List.Perm.refl _) _ _⟩

end ProtoActor.Cluster
