import Mathlib.Data.List.AList
import Mathlib.Data.List.Induction
import ProtoActor.Actor.Pid
import ProtoActor.Cluster.MemberList
import ProtoActor.Cluster.PubSubBatch
import ProtoActor.Cluster.Rendezvous

/-!
# The topic actor

`cluster/pubsub_topic.go`.  A `TopicActor` keeps its subscribers in a Go map keyed by
`subscribeIdentityStruct`, a comparable copy of the subscriber's PID (address, id and request id)
or of its cluster identity, and writes the map's values to the subscription store after each
change.  `SubscribeRequest` files the subscriber under its key and `UnsubscribeRequest` deletes
the key, each followed by a save.  A `NotifyAboutFailingSubscribersRequest` deletes the PID
subscribers reported `SubscriberNoLongerReachable`, and a `ClusterTopology` with members that
left deletes the PID subscribers at their addresses, both through `removeSubscribers`, which
saves only when it is given a key to delete.  A `PubSubBatch` is grouped by the address of each
subscriber's PID, a cluster identity being resolved by the cluster's lookup, and sent in one
`DeliverBatchRequest` to the delivery actor of each address.

A subscriber whose `Identity` oneof is unset has no key: `newSubscribeIdentityStruct` reads its
nil cluster identity and panics, so a subscribe or an unsubscribe of it stops the handler.

* `lookup_receive` says what one message does to the map, and `runInv_runTopic` lifts it to
  every sequence of messages: the map holds, under its key, each subscriber some
  `SubscribeRequest` of which is followed by no message that removes it (`SubscribedAfter`),
  and the store holds the map's values.
* `onPubSubBatch_delivers`: a batch goes out in one request per resolved address, and each
  subscriber whose PID resolves is in exactly one of them, the one of its PID's address
  (`DeliversByAddress`).
* `runTopic_eq_none_iff`: a run panics exactly when it subscribes or unsubscribes a subscriber
  with no identity.

Go iterates a map in an order that changes from run to run; the model iterates in the order of
the entries, so the store and each request hold the same values as Go's, in another order.
-/

namespace ProtoActor.Actor

/-- `NewPID`. -/
def newPID (address id : String) : PID :=
  { address := address, id := id, requestId := 0 }

end ProtoActor.Actor

namespace ProtoActor.Cluster

open ProtoActor.Actor ProtoActor.Transition

variable {μ : Type}

/-! ### Subscribers and their keys -/

/-- `SubscriberIdentity`, by its `Identity` oneof: a PID, a cluster identity, or unset (as for a
nil `*SubscriberIdentity`, whose getters return nil). -/
inductive SubscriberIdentity
  | unset
  | pid (pid : PID)
  | clusterIdentity (clusterIdentity : ClusterIdentity)
  deriving DecidableEq, Repr

namespace SubscriberIdentity

/-- `GetPid`. -/
def getPid : SubscriberIdentity → Option PID
  | pid p => some p
  | _ => none

/-- `GetClusterIdentity`. -/
def getClusterIdentity : SubscriberIdentity → Option ClusterIdentity
  | clusterIdentity ci => some ci
  | _ => none

end SubscriberIdentity

/-- `pidStruct`; the defaults are Go's zero values. -/
structure PidStruct where
  address : String := ""
  id : String := ""
  requestId : UInt32 := 0
  deriving DecidableEq, Repr

/-- `newPidStruct`. -/
def newPidStruct (pid : PID) : PidStruct :=
  { address := pid.address, id := pid.id, requestId := pid.requestId }

/-- `pidStruct.toPID`. -/
def PidStruct.toPID (p : PidStruct) : PID :=
  { address := p.address, id := p.id, requestId := p.requestId }

/-- `clusterIdentityStruct`. -/
structure ClusterIdentityStruct where
  identity : String := ""
  kind : String := ""
  deriving DecidableEq, Repr

/-- `newClusterIdentityStruct`. -/
def newClusterIdentityStruct (clusterIdentity : ClusterIdentity) : ClusterIdentityStruct :=
  { identity := clusterIdentity.identity, kind := clusterIdentity.kind }

/-- `clusterIdentityStruct.toClusterIdentity`. -/
def ClusterIdentityStruct.toClusterIdentity (c : ClusterIdentityStruct) : ClusterIdentity :=
  { identity := c.identity, kind := c.kind }

/-- `subscribeIdentityStruct`, the key of the subscribers map. -/
structure SubscribeIdentityStruct where
  isPID : Bool
  pid : PidStruct := {}
  clusterIdentity : ClusterIdentityStruct := {}
  deriving DecidableEq, Repr

/-- `newSubscribeIdentityStruct`; `none` where Go reads the nil cluster identity of an unset
subscriber. -/
def newSubscribeIdentityStruct (subscriberIdentity : SubscriberIdentity) :
    Option SubscribeIdentityStruct :=
  match subscriberIdentity.getPid with
  | some pid => some { isPID := true, pid := newPidStruct pid }
  | none =>
    subscriberIdentity.getClusterIdentity.map fun clusterIdentity =>
      { isPID := false, clusterIdentity := newClusterIdentityStruct clusterIdentity }

/-- `subscribeIdentityStruct.toSubscriberIdentity`. -/
def SubscribeIdentityStruct.toSubscriberIdentity (s : SubscribeIdentityStruct) :
    SubscriberIdentity :=
  if s.isPID then .pid s.pid.toPID else .clusterIdentity s.clusterIdentity.toClusterIdentity

theorem newSubscribeIdentityStruct_eq_none_iff {s : SubscriberIdentity} :
    newSubscribeIdentityStruct s = none ↔ s = .unset := by
  cases s <;> simp [newSubscribeIdentityStruct, SubscriberIdentity.getPid,
    SubscriberIdentity.getClusterIdentity]

/-- The key gives its subscriber back. -/
theorem toSubscriberIdentity_of_newSubscribeIdentityStruct {s : SubscriberIdentity}
    {k : SubscribeIdentityStruct} (h : newSubscribeIdentityStruct s = some k) :
    k.toSubscriberIdentity = s := by
  cases s with
  | unset => cases h
  | pid p =>
    cases h
    rfl
  | clusterIdentity ci =>
    cases h
    rfl

/-- Two subscribers with one key are the same. -/
theorem newSubscribeIdentityStruct_inj {s s' : SubscriberIdentity} {k : SubscribeIdentityStruct}
    (h : newSubscribeIdentityStruct s = some k) (h' : newSubscribeIdentityStruct s' = some k) :
    s = s' := by
  rw [← toSubscriberIdentity_of_newSubscribeIdentityStruct h,
    toSubscriberIdentity_of_newSubscribeIdentityStruct h']

/-! ### Maps of subscribers -/

section Maps

variable {κ β : Type} [DecidableEq κ]

/-- `maps.Values`, in the order of the entries. -/
def values (m : AList (fun _ : κ => β)) : List β :=
  m.entries.map Sigma.snd

theorem mem_values {m : AList (fun _ : κ => β)} {v : β} : v ∈ values m ↔ ∃ k, m.lookup k = some v := by
  constructor
  · intro hv
    obtain ⟨e, he, rfl⟩ := List.mem_map.mp hv
    exact ⟨e.1, AList.mem_lookup_iff.mpr he⟩
  · rintro ⟨k, hk⟩
    exact List.mem_map.mpr ⟨⟨k, v⟩, AList.mem_lookup_iff.mp hk, rfl⟩

/-- Deleting the keys `ks` one by one deletes exactly them. -/
theorem lookup_runFrom_erase_keys (ks : List κ) :
    ∀ (m : AList (fun _ : κ => β)) (k : κ),
      (runFrom (fun m k => m.erase k) m ks).lookup k = if k ∈ ks then none else m.lookup k := by
  induction ks with
  | nil => intro m k; simp
  | cons k' ks ih =>
    intro m k
    rw [runFrom_cons, ih]
    by_cases hk : k = k'
    · subst hk
      simp [AList.lookup_erase]
    · simp [hk, AList.lookup_erase_ne hk]

end Maps

/-- Each subscriber is filed under its own key. -/
def Keyed (subscribers : AList (fun _ : SubscribeIdentityStruct => SubscriberIdentity)) : Prop :=
  ∀ k s, subscribers.lookup k = some s → newSubscribeIdentityStruct s = some k

/-- The subscribers of a keyed map are all different. -/
theorem Keyed.nodup_values {m : AList (fun _ : SubscribeIdentityStruct => SubscriberIdentity)}
    (h : Keyed m) : (values m).Nodup := by
  refine List.Nodup.map_on (fun e he e' he' hsnd => ?_) m.nodupKeys.nodup
  -- entries with one value have one key, and the keys are distinct
  have hk := h e.1 e.2 (AList.mem_lookup_iff.mpr he)
  have hk' := h e'.1 e'.2 (AList.mem_lookup_iff.mpr he')
  rw [hsnd, hk'] at hk
  exact m.nodupKeys.eq_of_fst_eq he he' (Option.some_inj.mp hk).symm

/-! ### Messages -/

/-- `DeliveryStatus`. -/
inductive DeliveryStatus
  | delivered
  | subscriberNoLongerReachable
  | timeout
  | otherError
  deriving DecidableEq, Repr

/-- `SubscriberDeliveryReport`. -/
structure SubscriberDeliveryReport where
  subscriber : SubscriberIdentity
  status : DeliveryStatus
  deriving DecidableEq, Repr

/-- `DeliverBatchRequest`, with its `Subscribers` as the list they wrap. -/
structure DeliverBatchRequest (μ : Type) where
  subscribers : List SubscriberIdentity
  pubSubBatch : PubSubBatch μ
  topic : String

/-- The messages `Receive` handles once the topic runs. -/
inductive TopicMessage (μ : Type)
  | subscribeRequest (subscriber : SubscriberIdentity)
  | unsubscribeRequest (subscriber : SubscriberIdentity)
  | pubSubBatch (batch : PubSubBatch μ)
  | notifyAboutFailingSubscribersRequest (invalidDeliveries : List SubscriberDeliveryReport)
  | clusterTopology (topology : ClusterTopology)

/-- The responses of `Receive`. -/
inductive TopicResponse
  | subscribeResponse
  | unsubscribeResponse
  | publishResponse
  | notifyAboutFailingSubscribersResponse
  deriving DecidableEq, Repr

/-- What one message makes the actor send: the requests of `c.Send` in order, then the response
of `c.Respond`, if it responds. -/
structure TopicOutput (μ : Type) where
  sent : List (PID × DeliverBatchRequest μ)
  response : Option TopicResponse

/-- `PubSubDeliveryName`. -/
def pubSubDeliveryName : String :=
  "$pubsub-delivery"

/-- `pidAndSubscriber`. -/
structure PidAndSubscriber where
  pid : PID
  subscriber : SubscriberIdentity

/-- `getClusterIdentityPid`, through the cluster's identity lookup `get`. -/
def getClusterIdentityPid (get : ClusterIdentity → Option PID) :
    Option ClusterIdentity → Option PID
  | none => none
  | some identity => get identity

/-- `getPID`. -/
def getPID (get : ClusterIdentity → Option PID) (subscriber : SubscriberIdentity) : Option PID :=
  match subscriber.getPid with
  | some pid => some pid
  | none => getClusterIdentityPid get subscriber.getClusterIdentity

/-- One turn of the first loop of `onPubSubBatch`: a subscriber whose PID resolves joins the
list of its PID's address. -/
def addMember (get : ClusterIdentity → Option PID)
    (members : AList (fun _ : String => List PidAndSubscriber)) (identity : SubscriberIdentity) :
    AList (fun _ : String => List PidAndSubscriber) :=
  match getPID get identity with
  | some pid =>
    members.insert pid.address ((members.lookup pid.address).getD [] ++ [⟨pid, identity⟩])
  | none => members

/-- The first loop of `onPubSubBatch`: `members`, the subscribers by address. -/
def membersByAddress (get : ClusterIdentity → Option PID) (subscribers : List SubscriberIdentity) :
    AList (fun _ : String => List PidAndSubscriber) :=
  runFrom (addMember get) ∅ subscribers

/-- `getSubscribersForAddress`. -/
def getSubscribersForAddress (members : List PidAndSubscriber) : List SubscriberIdentity :=
  members.map PidAndSubscriber.subscriber

/-- The second loop of `onPubSubBatch`: one `DeliverBatchRequest` to the delivery actor of each
address. -/
def deliverBatchRequests (batch : PubSubBatch μ) (topic : String)
    (members : AList (fun _ : String => List PidAndSubscriber)) :
    List (PID × DeliverBatchRequest μ) :=
  members.entries.map fun e =>
    (newPID e.1 pubSubDeliveryName,
      { subscribers := getSubscribersForAddress e.2, pubSubBatch := batch, topic := topic })

/-! ### The actor -/

/-- `TopicActor`, with the value its `subscriptionStore` holds for its topic; the store's `Set`
succeeds, and its locks, logger and throttle are left out. -/
structure TopicActor where
  topic : String
  subscribers : AList (fun _ : SubscribeIdentityStruct => SubscriberIdentity)
  store : List SubscriberIdentity

namespace TopicActor

/-- `saveSubscriptionsInTopicActor`. -/
def saveSubscriptionsInTopicActor (t : TopicActor) : TopicActor :=
  { t with store := values t.subscribers }

/-- `removeSubscribers`: delete each key, and save if there was one. -/
def removeSubscribers (subscribersThatLeft : List SubscribeIdentityStruct) (t : TopicActor) :
    TopicActor :=
  if subscribersThatLeft.length > 0 then
    saveSubscriptionsInTopicActor
      { t with subscribers := runFrom (fun m k => m.erase k) t.subscribers subscribersThatLeft }
  else t

/-- The loop of `unsubscribeUnreachablePidSubscribers`: the keys of the PID subscribers reported
no longer reachable. -/
def unreachablePidSubscribers (allInvalidDeliveryReports : List SubscriberDeliveryReport) :
    List SubscribeIdentityStruct :=
  allInvalidDeliveryReports.filterMap fun r =>
    if r.subscriber.getPid.isSome && r.status == .subscriberNoLongerReachable then
      newSubscribeIdentityStruct r.subscriber
    else none

/-- `unsubscribeUnreachablePidSubscribers`. -/
def unsubscribeUnreachablePidSubscribers
    (allInvalidDeliveryReports : List SubscriberDeliveryReport) (t : TopicActor) : TopicActor :=
  t.removeSubscribers (unreachablePidSubscribers allInvalidDeliveryReports)

/-- The loop of `onClusterTopologyChanged`: the keys of the PID subscribers at an address of
`addressMap`. -/
def subscribersThatLeft (addressMap : List String)
    (subscribers : AList (fun _ : SubscribeIdentityStruct => SubscriberIdentity)) :
    List SubscribeIdentityStruct :=
  subscribers.entries.filterMap fun e =>
    match e.2.getPid with
    | some pid => if pid.address ∈ addressMap then some e.1 else none
    | none => none

/-- `onClusterTopologyChanged`. -/
def onClusterTopologyChanged (msg : ClusterTopology) (t : TopicActor) : TopicActor :=
  if msg.left.length > 0 then
    t.removeSubscribers (subscribersThatLeft (msg.left.map Member.address) t.subscribers)
  else t

/-- `onSubscribe`. -/
def onSubscribe (subscriber : SubscriberIdentity) (t : TopicActor) : Option TopicActor :=
  (newSubscribeIdentityStruct subscriber).map fun key =>
    saveSubscriptionsInTopicActor { t with subscribers := t.subscribers.insert key subscriber }

/-- `onUnsubscribe`. -/
def onUnsubscribe (subscriber : SubscriberIdentity) (t : TopicActor) : Option TopicActor :=
  (newSubscribeIdentityStruct subscriber).map fun key =>
    saveSubscriptionsInTopicActor { t with subscribers := t.subscribers.erase key }

/-- `onPubSubBatch`: one `DeliverBatchRequest` to the delivery actor of each address, then the
`PublishResponse`. -/
def onPubSubBatch (get : ClusterIdentity → Option PID) (batch : PubSubBatch μ) (t : TopicActor) :
    TopicOutput μ :=
  { sent := deliverBatchRequests batch t.topic (membersByAddress get (values t.subscribers))
    response := some .publishResponse }

/-- `Receive`; `none` where the handler panics. -/
def receive (get : ClusterIdentity → Option PID) (t : TopicActor) :
    TopicMessage μ → Option (TopicOutput μ × TopicActor)
  | .subscribeRequest subscriber =>
    (t.onSubscribe subscriber).map fun t' => (⟨[], some .subscribeResponse⟩, t')
  | .unsubscribeRequest subscriber =>
    (t.onUnsubscribe subscriber).map fun t' => (⟨[], some .unsubscribeResponse⟩, t')
  | .pubSubBatch batch => some (t.onPubSubBatch get batch, t)
  | .notifyAboutFailingSubscribersRequest invalidDeliveries =>
    some (⟨[], some .notifyAboutFailingSubscribersResponse⟩,
      t.unsubscribeUnreachablePidSubscribers invalidDeliveries)
  | .clusterTopology topology => some (⟨[], none⟩, t.onClusterTopologyChanged topology)

/-- The loop of `onStarted` over the stored subscribers: file each under its key. -/
def loadSubscribers (subscribers : AList (fun _ : SubscribeIdentityStruct => SubscriberIdentity)) :
    List SubscriberIdentity → Option (AList (fun _ : SubscribeIdentityStruct => SubscriberIdentity))
  | [] => some subscribers
  | subscriber :: stored =>
    (newSubscribeIdentityStruct subscriber).bind fun key =>
      loadSubscribers (subscribers.insert key subscriber) stored

/-- `unsubscribeSubscribersOnMembersThatLeft`, given the members of the cluster. -/
def unsubscribeSubscribersOnMembersThatLeft (members : List Member) (t : TopicActor) :
    TopicActor :=
  t.removeSubscribers (t.subscribers.keys.filter fun s =>
    s.isPID && !(members.map Member.address).contains s.pid.address)

/-- `onStarted`, for the topic `topic` whose store holds `stored`. -/
def onStarted (topic : String) (stored : List SubscriberIdentity) (members : List Member) :
    Option TopicActor :=
  (loadSubscribers ∅ stored).map fun subscribers =>
    unsubscribeSubscribersOnMembersThatLeft members ⟨topic, subscribers, stored⟩

end TopicActor

/-- The topic after the messages `msgs`, started on an empty store; `none` once a handler
panics. -/
def runTopic (get : ClusterIdentity → Option PID) (topic : String)
    (msgs : List (TopicMessage μ)) : Option TopicActor :=
  replay (fun t msg => (t.receive get msg).map Prod.snd) ⟨topic, ∅, []⟩ msgs

/-! ### What the subscribers should be -/

/-- The handlers that panic: a subscribe or an unsubscribe of a subscriber with no identity. -/
def TopicMessage.Panics : TopicMessage μ → Prop
  | .subscribeRequest s => s = .unset
  | .unsubscribeRequest s => s = .unset
  | _ => False

/-- The message takes the subscriber `s` off the topic: an `UnsubscribeRequest` of it, a report
that it is no longer reachable at its PID, or a topology in which a member at its PID's address
left. -/
def Removes (s : SubscriberIdentity) : TopicMessage μ → Prop
  | .unsubscribeRequest u => u = s
  | .notifyAboutFailingSubscribersRequest reports =>
    ∃ r ∈ reports, r.status = .subscriberNoLongerReachable ∧ r.subscriber = s ∧ s.getPid.isSome
  | .clusterTopology topology =>
    ∃ pid, s.getPid = some pid ∧ ∃ m ∈ topology.left, m.address = pid.address
  | _ => False

/-- Some `SubscribeRequest` of `s` in `msgs` is followed by no message that removes `s`, so the
last one is. -/
def SubscribedAfter (msgs : List (TopicMessage μ)) (s : SubscriberIdentity) : Prop :=
  ∃ pre post, msgs = pre ++ .subscribeRequest s :: post ∧ ∀ msg ∈ post, ¬Removes s msg

theorem not_subscribedAfter_nil (s : SubscriberIdentity) :
    ¬SubscribedAfter ([] : List (TopicMessage μ)) s := by
  rintro ⟨pre, post, h, -⟩
  exact List.cons_ne_nil _ _ (List.append_eq_nil_iff.mp h.symm).2

/-- **One more message.** `s` stays subscribed after `msg` when `msg` subscribes it, or it was
subscribed and `msg` does not remove it. -/
theorem subscribedAfter_append_singleton {msgs : List (TopicMessage μ)} {msg : TopicMessage μ}
    {s : SubscriberIdentity} :
    SubscribedAfter (msgs ++ [msg]) s ↔
      msg = .subscribeRequest s ∨ (SubscribedAfter msgs s ∧ ¬Removes s msg) := by
  constructor
  · rintro ⟨pre, post, h, hpost⟩
    -- the new message is the subscribe itself, or one of the messages after it
    rcases List.eq_nil_or_concat post with rfl | ⟨post', last, rfl⟩
    · exact Or.inl (List.singleton_inj.mp (List.append_inj' h rfl).2)
    · rw [List.concat_eq_append] at h hpost
      rw [← List.cons_append, ← List.append_assoc] at h
      obtain ⟨hmsgs, hlast⟩ := List.append_inj' h rfl
      rw [List.singleton_inj] at hlast
      subst hlast
      have hkept : ∀ m ∈ post', ¬Removes s m := fun m hm =>
        hpost m (List.mem_append_left _ hm)
      exact Or.inr ⟨⟨pre, post', hmsgs, hkept⟩,
        hpost msg (List.mem_append_right _ (List.mem_singleton_self msg))⟩
  · rintro (rfl | ⟨⟨pre, post, rfl, hpost⟩, hmsg⟩)
    · exact ⟨msgs, [], rfl, fun _ hm => absurd hm List.not_mem_nil⟩
    · refine ⟨pre, post ++ [msg], by simp, fun m hm => ?_⟩
      rcases List.mem_append.mp hm with hm | hm
      · exact hpost m hm
      · rw [List.mem_singleton.mp hm]
        exact hmsg

/-! ### The handlers -/

namespace TopicActor

variable {t t' : TopicActor}

@[simp] theorem saveSubscriptionsInTopicActor_subscribers (t : TopicActor) :
    t.saveSubscriptionsInTopicActor.subscribers = t.subscribers :=
  rfl

/-- `removeSubscribers` deletes exactly the keys it is given. -/
theorem lookup_removeSubscribers (ks : List SubscribeIdentityStruct) (t : TopicActor)
    (k : SubscribeIdentityStruct) :
    (t.removeSubscribers ks).subscribers.lookup k =
      if k ∈ ks then none else t.subscribers.lookup k := by
  unfold removeSubscribers
  split
  · exact lookup_runFrom_erase_keys ks t.subscribers k
  · -- no key to delete
    have hnil : ks = [] := List.eq_nil_of_length_eq_zero (by omega)
    simp [hnil]

theorem store_removeSubscribers (ks : List SubscribeIdentityStruct)
    (h : t.store = values t.subscribers) :
    (t.removeSubscribers ks).store = values (t.removeSubscribers ks).subscribers := by
  unfold removeSubscribers
  split
  · rfl
  · exact h

/-- What `removeSubscribers` leaves, when the keys it is given are those of the entries
satisfying `P`. -/
theorem lookup_removeSubscribers_iff {ks : List SubscribeIdentityStruct}
    {P : SubscribeIdentityStruct → SubscriberIdentity → Prop}
    (hks : ∀ k s, t.subscribers.lookup k = some s → (k ∈ ks ↔ P k s))
    (k : SubscribeIdentityStruct) (s : SubscriberIdentity) :
    (t.removeSubscribers ks).subscribers.lookup k = some s ↔
      t.subscribers.lookup k = some s ∧ ¬P k s := by
  rw [lookup_removeSubscribers]
  constructor
  · intro h
    by_cases hk : k ∈ ks
    · rw [if_pos hk] at h
      cases h
    · rw [if_neg hk] at h
      exact ⟨h, fun hP => hk ((hks k s h).mpr hP)⟩
  · rintro ⟨h, hP⟩
    rw [if_neg fun hk => hP ((hks k s h).mp hk), h]

theorem mem_unreachablePidSubscribers {reports : List SubscriberDeliveryReport}
    {k : SubscribeIdentityStruct} :
    k ∈ unreachablePidSubscribers reports ↔
      ∃ r ∈ reports, r.status = .subscriberNoLongerReachable ∧ r.subscriber.getPid.isSome ∧
        newSubscribeIdentityStruct r.subscriber = some k := by
  simp only [unreachablePidSubscribers, List.mem_filterMap]
  refine exists_congr fun r => and_congr_right fun _ => ?_
  by_cases hpid : r.subscriber.getPid.isSome <;>
    by_cases hstatus : r.status = .subscriberNoLongerReachable <;> simp [hpid, hstatus]

theorem mem_subscribersThatLeft {addressMap : List String}
    {m : AList (fun _ : SubscribeIdentityStruct => SubscriberIdentity)}
    {k : SubscribeIdentityStruct} :
    k ∈ subscribersThatLeft addressMap m ↔
      ∃ s, m.lookup k = some s ∧ ∃ pid, s.getPid = some pid ∧ pid.address ∈ addressMap := by
  simp only [subscribersThatLeft, List.mem_filterMap]
  constructor
  · rintro ⟨e, he, hk⟩
    cases hpid : e.2.getPid with
    | none => simp [hpid] at hk
    | some pid =>
      -- the entry is `k`'s, and its PID is at one of the addresses
      by_cases ha : pid.address ∈ addressMap
      · simp only [hpid, if_pos ha, Option.some_inj] at hk
        subst hk
        exact ⟨e.2, AList.mem_lookup_iff.mpr he, pid, hpid, ha⟩
      · simp [hpid, ha] at hk
  · rintro ⟨s, hs, pid, hpid, ha⟩
    exact ⟨⟨k, s⟩, AList.mem_lookup_iff.mp hs, by simp [hpid, ha]⟩

theorem onSubscribe_eq_some {s : SubscriberIdentity} (h : t.onSubscribe s = some t') :
    ∃ k, newSubscribeIdentityStruct s = some k ∧
      t' = saveSubscriptionsInTopicActor { t with subscribers := t.subscribers.insert k s } := by
  unfold onSubscribe at h
  obtain ⟨k, hk, rfl⟩ := Option.map_eq_some_iff.mp h
  exact ⟨k, hk, rfl⟩

theorem onUnsubscribe_eq_some {s : SubscriberIdentity} (h : t.onUnsubscribe s = some t') :
    ∃ k, newSubscribeIdentityStruct s = some k ∧
      t' = saveSubscriptionsInTopicActor { t with subscribers := t.subscribers.erase k } := by
  unfold onUnsubscribe at h
  obtain ⟨k, hk, rfl⟩ := Option.map_eq_some_iff.mp h
  exact ⟨k, hk, rfl⟩

theorem lookup_onClusterTopologyChanged (topology : ClusterTopology)
    (k : SubscribeIdentityStruct) (s : SubscriberIdentity) :
    (t.onClusterTopologyChanged topology).subscribers.lookup k = some s ↔
      t.subscribers.lookup k = some s ∧
        ¬∃ pid, s.getPid = some pid ∧ ∃ m ∈ topology.left, m.address = pid.address := by
  unfold onClusterTopologyChanged
  split
  · have hks : ∀ k s, t.subscribers.lookup k = some s →
        (k ∈ subscribersThatLeft (topology.left.map Member.address) t.subscribers ↔
          ∃ pid, s.getPid = some pid ∧ ∃ m ∈ topology.left, m.address = pid.address) := by
      intro k s hs
      rw [mem_subscribersThatLeft]
      simp only [hs, Option.some_inj, exists_eq_left', List.mem_map]
    exact lookup_removeSubscribers_iff hks k s
  · -- nobody left
    have hnil : topology.left = [] := List.eq_nil_of_length_eq_zero (by omega)
    simp [hnil]

section Lookup

variable (hkeyed : Keyed t.subscribers)
include hkeyed

theorem lookup_onSubscribe {s' : SubscriberIdentity} (h : t.onSubscribe s' = some t')
    (k : SubscribeIdentityStruct) (s : SubscriberIdentity) :
    t'.subscribers.lookup k = some s ↔
      (s' = s ∧ newSubscribeIdentityStruct s = some k) ∨ t.subscribers.lookup k = some s := by
  obtain ⟨k', hk', rfl⟩ := onSubscribe_eq_some h
  rw [saveSubscriptionsInTopicActor_subscribers]
  by_cases hk : k = k'
  · subst hk
    rw [AList.lookup_insert, Option.some_inj]
    -- what the map held under the key was `s'` already
    constructor
    · rintro rfl
      exact Or.inl ⟨rfl, hk'⟩
    · rintro (⟨rfl, -⟩ | hs)
      · rfl
      · exact newSubscribeIdentityStruct_inj hk' (hkeyed k s hs)
  · rw [AList.lookup_insert_ne hk]
    constructor
    · exact Or.inr
    · rintro (⟨rfl, hs⟩ | hs)
      · exact absurd (Option.some_inj.mp (hs.symm.trans hk')) hk
      · exact hs

theorem lookup_onUnsubscribe {u : SubscriberIdentity} (h : t.onUnsubscribe u = some t')
    (k : SubscribeIdentityStruct) (s : SubscriberIdentity) :
    t'.subscribers.lookup k = some s ↔ t.subscribers.lookup k = some s ∧ ¬u = s := by
  obtain ⟨k', hk', rfl⟩ := onUnsubscribe_eq_some h
  rw [saveSubscriptionsInTopicActor_subscribers]
  by_cases hk : k = k'
  · subst hk
    rw [AList.lookup_erase]
    -- the subscriber filed under `u`'s key is `u`
    constructor
    · intro h
      cases h
    · rintro ⟨hs, hne⟩
      exact absurd (newSubscribeIdentityStruct_inj hk' (hkeyed k s hs)) hne
  · rw [AList.lookup_erase_ne hk]
    refine ⟨fun hs => ⟨hs, ?_⟩, fun h => h.1⟩
    rintro rfl
    exact hk (Option.some_inj.mp ((hkeyed k u hs).symm.trans hk'))

theorem lookup_unsubscribeUnreachablePidSubscribers (reports : List SubscriberDeliveryReport)
    (k : SubscribeIdentityStruct) (s : SubscriberIdentity) :
    (t.unsubscribeUnreachablePidSubscribers reports).subscribers.lookup k = some s ↔
      t.subscribers.lookup k = some s ∧
        ¬∃ r ∈ reports, r.status = .subscriberNoLongerReachable ∧ r.subscriber = s ∧
          s.getPid.isSome := by
  -- a report names the key of a subscriber exactly when it names the subscriber
  have hks : ∀ k s, t.subscribers.lookup k = some s →
      (k ∈ unreachablePidSubscribers reports ↔ ∃ r ∈ reports,
        r.status = .subscriberNoLongerReachable ∧ r.subscriber = s ∧ s.getPid.isSome) := by
    intro k s hs
    rw [mem_unreachablePidSubscribers]
    refine exists_congr fun r => and_congr_right fun _ => ⟨?_, ?_⟩
    · rintro ⟨hstatus, hpid, hr⟩
      obtain rfl := newSubscribeIdentityStruct_inj hr (hkeyed k s hs)
      exact ⟨hstatus, rfl, hpid⟩
    · rintro ⟨hstatus, rfl, hpid⟩
      exact ⟨hstatus, hpid, hkeyed k _ hs⟩
  exact lookup_removeSubscribers_iff hks k s

/-- **One message.** After a message the map holds `s` under `k` exactly when the message
subscribed `s`, whose key is `k`, or the map held it and the message does not remove it. -/
theorem lookup_receive {get : ClusterIdentity → Option PID} {msg : TopicMessage μ}
    {out : TopicOutput μ} (h : t.receive get msg = some (out, t')) (k : SubscribeIdentityStruct)
    (s : SubscriberIdentity) :
    t'.subscribers.lookup k = some s ↔
      (msg = .subscribeRequest s ∧ newSubscribeIdentityStruct s = some k) ∨
        (t.subscribers.lookup k = some s ∧ ¬Removes s msg) := by
  cases msg with
  | subscribeRequest s' =>
    obtain ⟨t₁, h₁, heq⟩ := Option.map_eq_some_iff.mp h
    cases heq
    simpa [Removes] using lookup_onSubscribe hkeyed h₁ k s
  | unsubscribeRequest u =>
    obtain ⟨t₁, h₁, heq⟩ := Option.map_eq_some_iff.mp h
    cases heq
    simpa [Removes] using lookup_onUnsubscribe hkeyed h₁ k s
  | pubSubBatch batch =>
    cases h
    simp [Removes]
  | notifyAboutFailingSubscribersRequest reports =>
    cases h
    simpa [Removes] using lookup_unsubscribeUnreachablePidSubscribers hkeyed reports k s
  | clusterTopology topology =>
    cases h
    simpa [Removes] using lookup_onClusterTopologyChanged topology k s

end Lookup

/-- Every message that changes the map saves it. -/
theorem store_receive {get : ClusterIdentity → Option PID} {msg : TopicMessage μ}
    {out : TopicOutput μ} (hstore : t.store = values t.subscribers)
    (h : t.receive get msg = some (out, t')) : t'.store = values t'.subscribers := by
  cases msg with
  | subscribeRequest s =>
    obtain ⟨t₁, h₁, heq⟩ := Option.map_eq_some_iff.mp h
    cases heq
    obtain ⟨k, -, rfl⟩ := onSubscribe_eq_some h₁
    rfl
  | unsubscribeRequest s =>
    obtain ⟨t₁, h₁, heq⟩ := Option.map_eq_some_iff.mp h
    cases heq
    obtain ⟨k, -, rfl⟩ := onUnsubscribe_eq_some h₁
    rfl
  | pubSubBatch batch =>
    cases h
    exact hstore
  | notifyAboutFailingSubscribersRequest reports =>
    cases h
    exact store_removeSubscribers _ hstore
  | clusterTopology topology =>
    cases h
    unfold onClusterTopologyChanged
    split
    · exact store_removeSubscribers _ hstore
    · exact hstore

theorem receive_eq_none_iff {get : ClusterIdentity → Option PID} {msg : TopicMessage μ} :
    t.receive get msg = none ↔ msg.Panics := by
  cases msg <;>
    simp [receive, onSubscribe, onUnsubscribe, TopicMessage.Panics,
      newSubscribeIdentityStruct_eq_none_iff]

end TopicActor

/-! ### Runs -/

/-- What holds after a run of `msgs`: the map holds each subscriber, under its key, exactly when
the messages leave it subscribed, and the store holds the map's values. -/
structure RunInv (msgs : List (TopicMessage μ)) (t : TopicActor) : Prop where
  lookup : ∀ k s, t.subscribers.lookup k = some s ↔
    newSubscribeIdentityStruct s = some k ∧ SubscribedAfter msgs s
  store : t.store = values t.subscribers

namespace RunInv

variable {msgs : List (TopicMessage μ)} {t t' : TopicActor}

theorem keyed (h : RunInv msgs t) : Keyed t.subscribers :=
  fun k s hs => ((h.lookup k s).mp hs).1

/-- **Step lemma.** Each message that applies keeps the invariant, one message longer. -/
theorem receive {get : ClusterIdentity → Option PID} {msg : TopicMessage μ} {out : TopicOutput μ}
    (h : RunInv msgs t) (hstep : t.receive get msg = some (out, t')) :
    RunInv (msgs ++ [msg]) t' where
  lookup k s := by
    rw [TopicActor.lookup_receive h.keyed hstep, subscribedAfter_append_singleton, h.lookup]
    -- both sides ask for `k` to be the key of `s`
    constructor
    · rintro (⟨hmsg, hk⟩ | ⟨⟨hk, hs⟩, hr⟩)
      · exact ⟨hk, Or.inl hmsg⟩
      · exact ⟨hk, Or.inr ⟨hs, hr⟩⟩
    · rintro ⟨hk, hmsg | ⟨hs, hr⟩⟩
      · exact Or.inl ⟨hmsg, hk⟩
      · exact Or.inr ⟨⟨hk, hs⟩, hr⟩
  store := TopicActor.store_receive h.store hstep

end RunInv

theorem runInv_nil (topic : String) : RunInv ([] : List (TopicMessage μ)) ⟨topic, ∅, []⟩ where
  lookup k s := by
    rw [AList.lookup_empty]
    constructor
    · intro h
      cases h
    · intro h
      exact absurd h.2 (not_subscribedAfter_nil s)
  store := rfl

/-- **Run lemma.** After every sequence of messages that does not panic, the map holds what the
messages leave subscribed and the store holds the map's values. -/
theorem runInv_runTopic (get : ClusterIdentity → Option PID) (topic : String)
    (msgs : List (TopicMessage μ)) {t : TopicActor} (h : runTopic get topic msgs = some t) :
    RunInv msgs t := by
  induction msgs using List.reverseRecOn generalizing t with
  | nil =>
    cases h
    exact runInv_nil topic
  | append_singleton msgs msg ih =>
    rw [runTopic, replay_append] at h
    obtain ⟨t₀, h₀, h₁⟩ := Option.bind_eq_some_iff.mp h
    -- the last message applied to the state the others left
    obtain ⟨⟨out, t₁⟩, hstep, rfl⟩ : ∃ r, t₀.receive get msg = some r ∧ r.2 = t := by
      simpa [replay] using h₁
    exact (ih h₀).receive hstep

/-- A run panics exactly when it subscribes or unsubscribes a subscriber with no identity. -/
theorem runTopic_eq_none_iff (get : ClusterIdentity → Option PID) (topic : String)
    (msgs : List (TopicMessage μ)) :
    runTopic get topic msgs = none ↔ ∃ msg ∈ msgs, msg.Panics := by
  have hfails : ∀ (t : TopicActor) (msg : TopicMessage μ),
      (t.receive get msg).map Prod.snd = none ↔ msg.Panics :=
    fun _ _ => Option.map_eq_none_iff.trans TopicActor.receive_eq_none_iff
  exact replay_eq_none_iff hfails _ msgs

/-! ### Fan-out -/

/-- The subscriber's PID resolves to the address `a`. -/
def resolvesTo (get : ClusterIdentity → Option PID) (a : String) (s : SubscriberIdentity) : Bool :=
  decide ((getPID get s).map PID.address = some a)

section FanOut

variable {get : ClusterIdentity → Option PID}

theorem resolvesTo_eq_true_iff {a : String} {s : SubscriberIdentity} :
    resolvesTo get a s = true ↔ ∃ pid, getPID get s = some pid ∧ pid.address = a := by
  simp [resolvesTo]

theorem getSubscribersForAddress_addMember
    (m : AList (fun _ : String => List PidAndSubscriber)) (s : SubscriberIdentity) (a : String) :
    getSubscribersForAddress (((addMember get m s).lookup a).getD []) =
      getSubscribersForAddress ((m.lookup a).getD []) ++
        if resolvesTo get a s then [s] else [] := by
  unfold addMember
  cases hpid : getPID get s with
  | none => simp [resolvesTo, hpid]
  | some pid =>
    by_cases ha : pid.address = a
    · subst ha
      simp [AList.lookup_insert, getSubscribersForAddress, resolvesTo, hpid]
    · simp [AList.lookup_insert_ne (Ne.symm ha), resolvesTo, hpid, ha]

theorem mem_addMember (m : AList (fun _ : String => List PidAndSubscriber))
    (s : SubscriberIdentity) (a : String) :
    a ∈ addMember get m s ↔ a ∈ m ∨ resolvesTo get a s = true := by
  unfold addMember
  cases hpid : getPID get s with
  | none => simp [resolvesTo, hpid]
  | some pid =>
    rw [AList.mem_insert]
    simp [resolvesTo, hpid, eq_comm, or_comm]

/-- The first loop of `onPubSubBatch` appends to each address's list the subscribers that
resolve there, in order. -/
theorem getSubscribersForAddress_runFrom_addMember (l : List SubscriberIdentity) :
    ∀ (m : AList (fun _ : String => List PidAndSubscriber)) (a : String),
      getSubscribersForAddress (((runFrom (addMember get) m l).lookup a).getD []) =
        getSubscribersForAddress ((m.lookup a).getD []) ++ l.filter (resolvesTo get a) := by
  induction l with
  | nil => intro m a; simp
  | cons s l ih =>
    intro m a
    rw [runFrom_cons, ih, getSubscribersForAddress_addMember, List.filter_cons]
    by_cases hs : resolvesTo get a s = true <;> simp [hs]

theorem mem_runFrom_addMember (l : List SubscriberIdentity) :
    ∀ (m : AList (fun _ : String => List PidAndSubscriber)) (a : String),
      a ∈ runFrom (addMember get) m l ↔ a ∈ m ∨ ∃ s ∈ l, resolvesTo get a s = true := by
  induction l with
  | nil => intro m a; simp
  | cons s l ih =>
    intro m a
    rw [runFrom_cons, ih, mem_addMember]
    simp only [List.mem_cons, exists_eq_or_imp, or_assoc]

theorem getSubscribersForAddress_of_mem {l : List SubscriberIdentity}
    {e : Σ _ : String, List PidAndSubscriber} (he : e ∈ (membersByAddress get l).entries) :
    getSubscribersForAddress e.2 = l.filter (resolvesTo get e.1) := by
  have hlookup : (membersByAddress get l).lookup e.1 = some e.2 := AList.mem_lookup_iff.mpr he
  have h := @getSubscribersForAddress_runFrom_addMember get l ∅ e.1
  rw [← membersByAddress, hlookup, AList.lookup_empty] at h
  simpa [getSubscribersForAddress] using h

theorem map_address_deliverBatchRequests (batch : PubSubBatch μ) (topic : String)
    (members : AList (fun _ : String => List PidAndSubscriber)) :
    (deliverBatchRequests batch topic members).map (fun d => d.1.address) = members.keys := by
  simp [deliverBatchRequests, AList.keys, List.keys, newPID]

/-- Requests whose lists filter `l` by their distinct addresses hold a subscriber as many times as
`l` does if its address is among them, and never otherwise. -/
theorem count_flatMap_of_filter {l : List SubscriberIdentity} {s : SubscriberIdentity}
    {pid : PID} (hpid : getPID get s = some pid) :
    ∀ {ds : List (PID × DeliverBatchRequest μ)},
      (∀ d ∈ ds, d.2.subscribers = l.filter (resolvesTo get d.1.address)) →
      (ds.map fun d => d.1.address).Nodup →
      (ds.flatMap fun d => d.2.subscribers).count s =
        if pid.address ∈ ds.map (fun d => d.1.address) then l.count s else 0
  | [], _, _ => by simp
  | d :: ds, hreq, hnodup => by
    rw [List.map_cons, List.nodup_cons] at hnodup
    rw [List.flatMap_cons, List.count_append, hreq d List.mem_cons_self,
      count_flatMap_of_filter hpid (fun d' hd' => hreq d' (List.mem_cons_of_mem d hd')) hnodup.2]
    by_cases ha : d.1.address = pid.address
    · -- this is the request of `s`'s address, and no later request has it
      have hlater : pid.address ∉ ds.map (fun d => d.1.address) := ha ▸ hnodup.1
      rw [List.count_filter (by simp [resolvesTo, hpid, ha])]
      simp [ha, hlater]
    · have hzero : (l.filter (resolvesTo get d.1.address)).count s = 0 := by
        rw [List.count_eq_zero, List.mem_filter]
        rintro ⟨-, hs⟩
        exact ha (by simpa [resolvesTo, hpid, eq_comm] using hs)
      simp only [hzero, Nat.zero_add, List.map_cons, List.mem_cons, Ne.symm ha, false_or]

end FanOut

/-- What the requests `sent` for a batch must be, for the subscribers `subscribers`: one request
for each address some subscriber's PID resolves to, to the delivery actor there, with the batch
and the topic, holding exactly the subscribers that resolve to its address; so each subscriber
whose PID resolves is in the requests once. -/
structure DeliversByAddress (get : ClusterIdentity → Option PID) (topic : String)
    (batch : PubSubBatch μ) (subscribers : List SubscriberIdentity)
    (sent : List (PID × DeliverBatchRequest μ)) : Prop where
  nodup_addresses : (sent.map fun d => d.1.address).Nodup
  mem_addresses : ∀ a, a ∈ sent.map (fun d => d.1.address) ↔
    ∃ s ∈ subscribers, ∃ pid, getPID get s = some pid ∧ pid.address = a
  target : ∀ d ∈ sent,
    d.1 = newPID d.1.address pubSubDeliveryName ∧ d.2.pubSubBatch = batch ∧ d.2.topic = topic
  mem_request : ∀ d ∈ sent, ∀ s, s ∈ d.2.subscribers ↔
    s ∈ subscribers ∧ ∃ pid, getPID get s = some pid ∧ pid.address = d.1.address
  count_eq_one : ∀ s ∈ subscribers, ∀ pid, getPID get s = some pid →
    (sent.flatMap fun d => d.2.subscribers).count s = 1

/-- **Fan-out.** Grouping distinct subscribers by address sends what `DeliversByAddress` asks. -/
theorem deliversByAddress_deliverBatchRequests (get : ClusterIdentity → Option PID)
    (topic : String) (batch : PubSubBatch μ) {l : List SubscriberIdentity} (hl : l.Nodup) :
    DeliversByAddress get topic batch l
      (deliverBatchRequests batch topic (membersByAddress get l)) where
  nodup_addresses := by
    rw [map_address_deliverBatchRequests]
    exact AList.keys_nodup _
  mem_addresses a := by
    rw [map_address_deliverBatchRequests, ← AList.mem_keys, membersByAddress,
      mem_runFrom_addMember]
    simp [resolvesTo_eq_true_iff]
  target d hd := by
    obtain ⟨e, -, rfl⟩ := List.mem_map.mp hd
    exact ⟨rfl, rfl, rfl⟩
  mem_request d hd s := by
    obtain ⟨e, he, rfl⟩ := List.mem_map.mp hd
    show s ∈ getSubscribersForAddress e.2 ↔ _
    rw [getSubscribersForAddress_of_mem he, List.mem_filter, resolvesTo_eq_true_iff]
    rfl
  count_eq_one s hs pid hpid := by
    have hreq : ∀ d ∈ deliverBatchRequests batch topic (membersByAddress get l),
        d.2.subscribers = l.filter (resolvesTo get d.1.address) := by
      intro d hd
      obtain ⟨e, he, rfl⟩ := List.mem_map.mp hd
      exact getSubscribersForAddress_of_mem he
    -- `s`'s address is among the requests', once
    have haddr : pid.address ∈ (membersByAddress get l).keys := by
      rw [← AList.mem_keys, membersByAddress, mem_runFrom_addMember]
      exact Or.inr ⟨s, hs, resolvesTo_eq_true_iff.mpr ⟨pid, hpid, rfl⟩⟩
    have hnodup := AList.keys_nodup (membersByAddress get l)
    rw [← map_address_deliverBatchRequests batch topic] at haddr hnodup
    rw [count_flatMap_of_filter hpid hreq hnodup, if_pos haddr]
    exact List.count_eq_one_of_mem hl hs

/-- **Fan-out of the topic.** `onPubSubBatch` sends what `DeliversByAddress` asks for the map's
subscribers. -/
theorem onPubSubBatch_delivers {t : TopicActor} (hkeyed : Keyed t.subscribers)
    (get : ClusterIdentity → Option PID) (batch : PubSubBatch μ) :
    DeliversByAddress get t.topic batch (values t.subscribers) (t.onPubSubBatch get batch).sent :=
  deliversByAddress_deliverBatchRequests get t.topic batch hkeyed.nodup_values

/-! ### Starting again from the store -/

namespace TopicActor

end TopicActor

/-! ### The topic over every run -/

theorem topicActor_keeps_subscriptions (get : ClusterIdentity → Option PID) (topic : String)
    (msgs : List (TopicMessage μ)) :
    (runTopic get topic msgs = none ↔ ∃ msg ∈ msgs, msg.Panics) ∧
      ∀ t, runTopic get topic msgs = some t →
        (∀ k s, t.subscribers.lookup k = some s ↔
          newSubscribeIdentityStruct s = some k ∧ SubscribedAfter msgs s) ∧
        t.store = values t.subscribers ∧
        ∀ batch : PubSubBatch μ,
          t.receive get (.pubSubBatch batch) = some (t.onPubSubBatch get batch, t) ∧
            DeliversByAddress get t.topic batch (values t.subscribers)
              (t.onPubSubBatch get batch).sent := by
  refine ⟨runTopic_eq_none_iff get topic msgs, fun t ht => ?_⟩
  have hinv := runInv_runTopic get topic msgs ht
  exact ⟨hinv.lookup, hinv.store, fun batch => ⟨rfl, onPubSubBatch_delivers hinv.keyed get batch⟩⟩

end ProtoActor.Cluster
