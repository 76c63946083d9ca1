/-
Module: OmniBinder.Runtime.TopicRuntime
Purpose: The topics of a runtime, `src/core/topic_runtime.cpp`: the subscriptions of a topic by the key
  of their selector, its publication with one owner, and the clients of the local services that
  subscribe to it; and the calls of `src/core/runtime_topic.cpp` that change the subscriptions.
Trusted boundary: human-reviewed spec
Main exports: fnv1a32, TopicRuntime.subscribeTopic
-/
import OmniBinder.Core.ServiceCodec
import OmniBinder.Lib.Table

namespace OmniBinder

/-- `fnv1a_32`. A name is hashed as a C string, up to its first zero byte. -/
def fnv1a32 (text : Bytes) : UInt32 :=
  (text.takeWhile (· ≠ 0)).foldl (fun hash byte => (hash ^^^ byte.toUInt32) * 0x01000193) 0x811c9dc5

/-! ### Selectors -/

/-- `TopicSubscriptionSelector` of the API, and the runtime's own copy of it with the same fields. -/
structure SubscriptionSelector where
  publisherService : Bytes
  hostId : Bytes
  instanceId : Bytes
  instanceLevel : Bool
deriving DecidableEq, Repr

namespace SubscriptionSelector

/-- The selector of an ordinary subscription. -/
def init : SubscriptionSelector := ⟨[], [], [], false⟩

def key (s : SubscriptionSelector) : Bytes :=
  if s.instanceLevel then
    ascii "I" ++ decimal s.publisherService.length ++ ascii "|" ++ s.publisherService
      ++ decimal s.instanceId.length ++ ascii "|" ++ s.instanceId
  else if !s.publisherService.isEmpty then
    ascii "S" ++ decimal s.publisherService.length ++ ascii "|" ++ s.publisherService
  else ascii "L"

end SubscriptionSelector

/-- The host takes no part. -/
def SubscriptionSelector.matches (s : SubscriptionSelector) (publisher : ServiceIdentity) : Bool :=
  if s.publisherService.isEmpty then true
  else if s.publisherService ≠ publisher.name then false
  else if s.instanceLevel then s.instanceId == publisher.instanceId
  else true

/-! ### The state -/

structure Subscription where
  selector : SubscriptionSelector
  key : Bytes
  sourceCallback : Option Nat
  hasSourceCallback : Bool
  errorCallback : Option Nat
  hasErrorCallback : Bool
  expectedIdlHash : UInt32
deriving DecidableEq, Repr

structure ShmSubscriber where
  serviceName : Bytes
  clientId : UInt32
deriving DecidableEq, Repr

/-- A subscription that nothing is known of but its selector. -/
def Subscription.init (selector : SubscriptionSelector) : Subscription :=
  ⟨selector, selector.key, none, false, none, false, 0⟩

/-- `SubscriptionRecord`, and `MatchedSubscription` without the key. -/
structure SubscriptionRecord where
  topicName : Bytes
  selector : SubscriptionSelector
  expectedIdlHash : UInt32
deriving DecidableEq, Repr

structure TopicRuntime.TopicState where
  id : UInt32
  name : Bytes
  subscriptions : List Subscription
  tcpSubscribers : List Int
  shmSubscribers : List ShmSubscriber
  published : Bool
  ownerService : Bytes
  publishedHash : UInt32
deriving DecidableEq, Repr

structure TopicRuntime where
  topics : Table UInt32 TopicRuntime.TopicState
  nameToId : Table Bytes UInt32

namespace TopicRuntime

namespace TopicState

def init : TopicState := ⟨0, [], [], [], [], false, [], 0⟩

/-- `isTopicUnused`. -/
def isUnused (s : TopicState) : Bool :=
  s.subscriptions.isEmpty && !s.published && s.tcpSubscribers.isEmpty && s.shmSubscribers.isEmpty

def ensureSubscription (s : TopicState) (selector : SubscriptionSelector) : TopicState :=
  if s.subscriptions.any (·.key = selector.key) then s
  else { s with subscriptions := s.subscriptions ++ [Subscription.init selector] }

def findSubscription (s : TopicState) (key : Bytes) : Option Subscription :=
  s.subscriptions.find? (·.key = key)

/-- Change the subscription that `ensureSubscription` has found or added. -/
def modifySubscription (s : TopicState) (selector : SubscriptionSelector)
    (f : Subscription → Subscription) : TopicState :=
  let s := s.ensureSubscription selector
  { s with
    subscriptions := s.subscriptions.modify (s.subscriptions.findIdx (·.key = selector.key)) f }

end TopicState

def init : TopicRuntime := ⟨∅, ∅⟩

/-- What is known of a topic; of one that is not in the table, nothing. -/
def topic (t : TopicRuntime) (id : UInt32) : TopicState := t.topics[id]?.getD .init

def modifyTopic (t : TopicRuntime) (id : UInt32) (f : TopicState → TopicState) : TopicRuntime :=
  { t with topics := t.topics.adjust id fun s => some (f s) }

/-- Only a topic with a name is entered by name. -/
def ensureTopic (t : TopicRuntime) (id : UInt32) (name : Bytes) : TopicRuntime :=
  let s := { t.topic id with id }
  if name.isEmpty then { t with topics := t.topics.insert id s }
  else ⟨t.topics.insert id { s with name }, t.nameToId.insert name id⟩

def eraseTopicIfUnused (t : TopicRuntime) (id : UInt32) : TopicRuntime :=
  match t.topics[id]? with
  | none => t
  | some s =>
    if s.isUnused then
      ⟨t.topics.erase id, if s.name.isEmpty then t.nameToId else t.nameToId.erase s.name⟩
    else t

def dropNameIfUnused (t : TopicRuntime) (name : Bytes) (id : UInt32) : TopicRuntime :=
  match t.topics[id]? with
  | none => { t with nameToId := t.nameToId.erase name }
  | some s =>
    let t :=
      if s.subscriptions.isEmpty ∧ !s.published then { t with nameToId := t.nameToId.erase name }
      else t
    t.eraseTopicIfUnused id

/-! ### Subscriptions -/

def rememberSubscription (t : TopicRuntime) (name : Bytes) (selector : SubscriptionSelector)
    (callback : Option Nat) (expectedIdlHash : UInt32) : TopicRuntime :=
  (t.ensureTopic (fnv1a32 name) name).modifyTopic (fnv1a32 name) fun s =>
    s.modifySubscription selector fun sub =>
      { sub with sourceCallback := callback, hasSourceCallback := true, expectedIdlHash }

def forgetSubscription (t : TopicRuntime) (name : Bytes) (selector : SubscriptionSelector) :
    TopicRuntime :=
  match t.nameToId[name]? with
  | none => t
  | some id =>
    if t.topics.contains id then
      (t.modifyTopic id fun s =>
        { s with subscriptions := s.subscriptions.eraseP (·.key = selector.key) }).dropNameIfUnused
          name id
    else t

def setErrorCallback (t : TopicRuntime) (name : Bytes) (selector : SubscriptionSelector)
    (callback : Option Nat) : TopicRuntime :=
  (t.ensureTopic (fnv1a32 name) name).modifyTopic (fnv1a32 name) fun s =>
    s.modifySubscription selector fun sub =>
      { sub with errorCallback := callback, hasErrorCallback := true }

def setExpectedSubscriptionHash (t : TopicRuntime) (name : Bytes) (selector : SubscriptionSelector)
    (idlHash : UInt32) : TopicRuntime :=
  (t.ensureTopic (fnv1a32 name) name).modifyTopic (fnv1a32 name) fun s =>
    s.modifySubscription selector fun sub => { sub with expectedIdlHash := idlHash }

/-- The error callbacks that `notifyError` calls when it is told no publisher. -/
def errorCallbacks (t : TopicRuntime) (id : UInt32) : List Nat :=
  (t.topic id).subscriptions.filterMap fun sub =>
    if sub.hasErrorCallback then sub.errorCallback else none

/-- The error callbacks that `notifyError` calls for a publisher. -/
def errorCallbacksFrom (t : TopicRuntime) (id : UInt32) (publisher : ServiceIdentity) : List Nat :=
  (t.topic id).subscriptions.filterMap fun sub =>
    if sub.selector.matches publisher ∧ sub.hasErrorCallback then sub.errorCallback else none

/-- The callback that `notifySubscriptionError` calls. -/
def subscriptionErrorCallback (t : TopicRuntime) (name key : Bytes) : Option Nat :=
  t.nameToId[name]?.bind fun id =>
    ((t.topic id).findSubscription key).bind fun sub =>
      if sub.hasErrorCallback then sub.errorCallback else none

/-- A call of a source callback, with the source it reports. -/
structure SourceCall where
  callback : Nat
  hostId : Bytes
  instanceId : Bytes
deriving DecidableEq, Repr

/-- The calls for a message of a publisher. The callbacks are collected before the first is called. -/
def dispatchFrom (t : TopicRuntime) (publisher : ServiceIdentity) (id : UInt32) : List SourceCall :=
  (t.topic id).subscriptions.filterMap fun sub =>
    if sub.selector.matches publisher ∧ sub.hasSourceCallback then
      sub.sourceCallback.map fun callback => ⟨callback, publisher.hostId, publisher.instanceId⟩
    else none

/-- Only topics with a name and subscriptions that were accepted are sent again. -/
def subscriptionRecords (t : TopicRuntime) : List SubscriptionRecord :=
  t.topics.toList.flatMap fun (_, s) =>
    if s.name.isEmpty then []
    else
      (s.subscriptions.filter (·.hasSourceCallback)).map fun sub =>
        ⟨s.name, sub.selector, sub.expectedIdlHash⟩

def matchSubscriptions (t : TopicRuntime) (name : Bytes) (publisher : ServiceIdentity) :
    List Subscription :=
  match t.nameToId[name]? with
  | none => []
  | some id => (t.topic id).subscriptions.filter (·.selector.matches publisher)

/-! ### Publications -/

/-- The owner of an earlier publication is overwritten. -/
def rememberPublishedTopic (t : TopicRuntime) (name : Bytes) (id : UInt32) (ownerService : Bytes)
    (idlHash : UInt32) : TopicRuntime :=
  (t.ensureTopic id name).modifyTopic id fun s =>
    { s with published := true, ownerService, publishedHash := idlHash }

/-- With the publication go the subscribers. -/
def forgetPublishedTopic (t : TopicRuntime) (name : Bytes) : TopicRuntime :=
  match t.nameToId[name]? with
  | none => t
  | some id =>
    if (t.topic id).published then
      (t.modifyTopic id fun s =>
        { s with
          published := false
          ownerService := []
          publishedHash := 0
          tcpSubscribers := []
          shmSubscribers := [] }).dropNameIfUnused name id
    else t

def namesOwnedBy (t : TopicRuntime) (ownerService : Bytes) : List Bytes :=
  t.topics.toList.filterMap fun (_, s) =>
    if s.published ∧ s.ownerService = ownerService ∧ !s.name.isEmpty then some s.name else none

def forgetPublishedTopicsByOwner (t : TopicRuntime) (ownerService : Bytes) : TopicRuntime :=
  (t.namesOwnedBy ownerService).foldl forgetPublishedTopic t

/-- `publishedTopicOwners` and `publishedTopicHashes` together, each a map by name. -/
def publishedTopics (t : TopicRuntime) : Table Bytes (Bytes × UInt32) :=
  t.topics.toList.foldl
    (fun result (_, s) =>
      if s.published ∧ !s.name.isEmpty then result.insert s.name (s.ownerService, s.publishedHash)
      else result)
    ∅

def getTopicId (t : TopicRuntime) (name : Bytes) : UInt32 :=
  match t.nameToId[name]? with
  | none => 0
  | some id => if (t.topic id).published then (t.topic id).id else 0

/-! ### Subscribers -/

/-- The loops over all topics: each is changed, and erased if it is left unused. -/
def forEachTopic (t : TopicRuntime) (f : TopicState → TopicState) : TopicRuntime :=
  t.topics.keys.foldl (fun t id => (t.modifyTopic id f).eraseTopicIfUnused id) t

def addTcpSubscriber (t : TopicRuntime) (id : UInt32) (clientFd : Int) : TopicRuntime :=
  (t.ensureTopic id []).modifyTopic id fun s =>
    if clientFd ∈ s.tcpSubscribers then s
    else { s with tcpSubscribers := s.tcpSubscribers ++ [clientFd] }

def removeTcpSubscriberFd (t : TopicRuntime) (clientFd : Int) : TopicRuntime :=
  t.forEachTopic fun s => { s with tcpSubscribers := s.tcpSubscribers.filter (· ≠ clientFd) }

def addShmSubscriberService (t : TopicRuntime) (id : UInt32) (serviceName : Bytes)
    (clientId : UInt32) : TopicRuntime :=
  (t.ensureTopic id []).modifyTopic id fun s =>
    if ⟨serviceName, clientId⟩ ∈ s.shmSubscribers then s
    else { s with shmSubscribers := s.shmSubscribers ++ [⟨serviceName, clientId⟩] }

def removeShmSubscriberService (t : TopicRuntime) (serviceName : Bytes) (clientId : UInt32) :
    TopicRuntime :=
  t.forEachTopic fun s =>
    { s with shmSubscribers := s.shmSubscribers.filter (· ≠ ⟨serviceName, clientId⟩) }

/-- Unlike the others, this one leaves an unused topic in the table. -/
def removeTcpSubscriber (t : TopicRuntime) (id : UInt32) (clientFd : Int) : TopicRuntime :=
  t.modifyTopic id fun s => { s with tcpSubscribers := s.tcpSubscribers.filter (· ≠ clientFd) }

/-! ### Calls -/

/-- The calls that change the topics. A topic is published under the hash of its name. -/
inductive Call where
  | rememberSubscription (name : Bytes) (selector : SubscriptionSelector) (callback : Option Nat)
    (expectedIdlHash : UInt32)
  | setErrorCallback (name : Bytes) (selector : SubscriptionSelector) (callback : Option Nat)
  | setExpectedSubscriptionHash (name : Bytes) (selector : SubscriptionSelector) (idlHash : UInt32)
  | forgetSubscription (name : Bytes) (selector : SubscriptionSelector)
  | rememberPublishedTopic (name ownerService : Bytes) (idlHash : UInt32)
  | forgetPublishedTopic (name : Bytes)
  | forgetPublishedTopicsByOwner (ownerService : Bytes)
  | addTcpSubscriber (id : UInt32) (clientFd : Int)
  | removeTcpSubscriberFd (clientFd : Int)
  | removeTcpSubscriber (id : UInt32) (clientFd : Int)
  | addShmSubscriberService (id : UInt32) (serviceName : Bytes) (clientId : UInt32)
  | removeShmSubscriberService (serviceName : Bytes) (clientId : UInt32)
deriving DecidableEq, Repr

/-- The name of the topic that a call subscribes, unsubscribes, publishes or unpublishes. -/
def Call.topicName : Call → Option Bytes
  | .rememberSubscription name .. | .setErrorCallback name .. | .setExpectedSubscriptionHash name ..
  | .forgetSubscription name _ | .rememberPublishedTopic name .. | .forgetPublishedTopic name =>
    some name
  | _ => none

def step (t : TopicRuntime) : Call → TopicRuntime
  | .rememberSubscription name selector callback expectedIdlHash =>
    t.rememberSubscription name selector callback expectedIdlHash
  | .setErrorCallback name selector callback => t.setErrorCallback name selector callback
  | .setExpectedSubscriptionHash name selector idlHash =>
    t.setExpectedSubscriptionHash name selector idlHash
  | .forgetSubscription name selector => t.forgetSubscription name selector
  | .rememberPublishedTopic name ownerService idlHash =>
    t.rememberPublishedTopic name (fnv1a32 name) ownerService idlHash
  | .forgetPublishedTopic name => t.forgetPublishedTopic name
  | .forgetPublishedTopicsByOwner ownerService => t.forgetPublishedTopicsByOwner ownerService
  | .addTcpSubscriber id clientFd => t.addTcpSubscriber id clientFd
  | .removeTcpSubscriberFd clientFd => t.removeTcpSubscriberFd clientFd
  | .removeTcpSubscriber id clientFd => t.removeTcpSubscriber id clientFd
  | .addShmSubscriberService id serviceName clientId =>
    t.addShmSubscriberService id serviceName clientId
  | .removeShmSubscriberService serviceName clientId =>
    t.removeShmSubscriberService serviceName clientId

end TopicRuntime

/-- The arguments of `subscribeTopicInternal`. -/
structure SubscribeCall where
  selector : SubscriptionSelector
  topicName : Bytes
  expectedIdlHash : UInt32
  callback : Option Nat
  onError : Option Nat
deriving DecidableEq, Repr

namespace SubscribeCall

/-- One instance, but of no service. -/
def isInvalid (call : SubscribeCall) : Bool :=
  call.selector.publisherService.isEmpty && call.selector.instanceLevel

end SubscribeCall

/-- What a selector puts on the wire. -/
def SubscriptionSelector.fields (s : SubscriptionSelector) : TopicSelectorFields :=
  ⟨if s.instanceLevel then topicSubModeInstance else topicSubModeService, s.publisherService, s.hostId,
    s.instanceId⟩

/-- The payload of `MSG_SUBSCRIBE_TOPIC` and `MSG_UNSUBSCRIBE_TOPIC`, unless the selector cannot be
    written. The empty selector is not written at all, and whether the name could be is not looked at. -/
def topicRequestPayload (alloc : Allocator) (topicName : Bytes) (selector : SubscriptionSelector) :
    Option Buffer :=
  let named := (Buffer.init.writeString alloc topicName).2
  if selector.publisherService.isEmpty then some named
  else
    match writeTopicSubscriptionSelector alloc selector.fields named with
    | (true, payload) => some payload
    | (false, _) => none

/-- The hash of the publisher that the reply to an accepted subscription has, zero for none. -/
def decodeSubscribeReply (payload : Bytes) : Except ErrorCode UInt32 :=
  match tryReadBool payload with
  | none => .error .errDeserialize
  | some (false, _) => .error .errRegisterFailed
  | some (true, rest) =>
    if rest.length ≥ 4 then
      match tryReadUint32 rest with
      | none => .error .errDeserialize
      | some (hash, _) => .ok hash
    else .ok 0

/-- Hashes are only compared when both sides have one. -/
def idlMismatch (expected publisher : UInt32) : Bool :=
  expected ≠ 0 ∧ publisher ≠ 0 ∧ publisher ≠ expected

/-- How a subscription ends: not accepted, accepted by the ServiceManager but given up because of the
    publisher's hash, or accepted. -/
inductive SubscribeEnd where
  | failed (code : ErrorCode)
  | mismatch
  | accepted
deriving DecidableEq, Repr

def SubscribeEnd.error : SubscribeEnd → Option ErrorCode
  | .failed code => some code
  | .mismatch => some .errIdlMismatch
  | .accepted => none

/-- The end that the outcome of the request leads to. -/
def SubscribeCall.ending (call : SubscribeCall) : Except ErrorCode Bytes → SubscribeEnd
  | .error code => .failed code
  | .ok payload =>
    match decodeSubscribeReply payload with
    | .error code => .failed code
    | .ok hash => if idlMismatch call.expectedIdlHash hash then .mismatch else .accepted

namespace TopicRuntime

/-- Up to the request: a notification may come in before the reply is looked at, and has to find the
    hash. -/
def beginSubscribe (t : TopicRuntime) (call : SubscribeCall) : TopicRuntime :=
  t.setExpectedSubscriptionHash call.topicName call.selector call.expectedIdlHash

/-- From the end of the request on. A mismatch goes through `unsubscribeTopicInternal`, which also tells
    the ServiceManager. -/
def endSubscribe (t : TopicRuntime) (call : SubscribeCall) : SubscribeEnd → TopicRuntime
  | .failed _ => t.forgetSubscription call.topicName call.selector
  | .mismatch => t.forgetSubscription call.topicName call.selector
  | .accepted =>
    (t.rememberSubscription call.topicName call.selector call.callback
      call.expectedIdlHash).setErrorCallback call.topicName call.selector call.onError

/-- A whole call of `subscribeTopic` during which nothing else changes the topics. -/
def subscribeTopic (alloc : Allocator) (t : TopicRuntime) (call : SubscribeCall)
    (outcome : Except ErrorCode Bytes) : Option ErrorCode × TopicRuntime :=
  if call.isInvalid then (some .errInvalidParam, t)
  else
    let t := t.beginSubscribe call
    match topicRequestPayload alloc call.topicName call.selector with
    | none => (some .errSerialize, t.forgetSubscription call.topicName call.selector)
    | some _ => ((call.ending outcome).error, t.endSubscribe call (call.ending outcome))

/-- `unsubscribeTopicInternal`, without the message and without the connections. -/
def unsubscribeTopic (alloc : Allocator) (t : TopicRuntime) (topicName : Bytes)
    (selector : SubscriptionSelector) : Option ErrorCode × TopicRuntime :=
  match topicRequestPayload alloc topicName selector with
  | none => (some .errSerialize, t)
  | some _ => (none, t.forgetSubscription topicName selector)

end TopicRuntime

end OmniBinder
