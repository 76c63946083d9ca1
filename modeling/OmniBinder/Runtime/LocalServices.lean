/-
Module: OmniBinder.Runtime.LocalServices
Purpose: The services that a runtime hosts, with their clients and the topics they publish: the table
  part of `src/core/runtime_service.cpp`, the subscriptions of clients in
  `src/core/runtime_dispatch.cpp`, `broadcastInternal` and the publications of
  `src/core/runtime_topic.cpp`, and the way of a broadcast from end to end.
Trusted boundary: human-reviewed spec
Main exports: LocalServices.broadcastTargets, TopicNetwork.stubBroadcast
-/
import OmniBinder.Runtime.TopicRuntime
import OmniBinder.Idl.IdlHash

namespace OmniBinder

inductive TransportType where
  | tcp
  | shm
deriving DecidableEq, Repr

/-- `PublishedTopicInfo`. -/
structure PublishedTopicInfo where
  name : Bytes
  idlHash : UInt32
deriving DecidableEq, Repr

/-- `LocalServiceEntry`: what the service registers itself with, the topics it declares and the
    connections of its clients. -/
structure LocalServiceEntry where
  info : ServiceInfo
  publishedTopics : List PublishedTopicInfo
  clients : Table Int TransportType

structure LocalServices where
  localServices : Table Bytes LocalServiceEntry
  clientIdToService : Table Int Bytes
  topicRuntime : TopicRuntime

/-- How a request to the ServiceManager ends that is answered by yes or no. -/
inductive RequestOutcome where
  | notConnected
  | failed (code : ErrorCode)
  | malformed
  | answered (accepted : Bool)
deriving DecidableEq, Repr

def ErrorCode.isTransientSmError (code : ErrorCode) : Bool :=
  code = .errSmUnreachable ∨ code = .errSendFailed ∨ code = .errTimeout ∨ code = .errConnectionClosed

/-- A client that a broadcast is sent to, and the service through which it is connected. -/
structure BroadcastTarget where
  serviceName : Bytes
  clientId : Int
deriving DecidableEq, Repr

namespace LocalServices

def init : LocalServices := ⟨∅, ∅, .init⟩

def mapTopics (s : LocalServices) (f : TopicRuntime → TopicRuntime) : LocalServices :=
  { s with topicRuntime := f s.topicRuntime }

/-! ### Clients -/

/-- A connection of some service has this number. -/
def isClient (s : LocalServices) (clientId : Int) : Bool :=
  s.localServices.toList.any fun (_, entry) => entry.clients.contains clientId

/-- A number is a file descriptor, so that no two connections have the same. -/
def onServiceClientAccepted (s : LocalServices) (name : Bytes) (clientId : Int)
    (transport : TransportType) : LocalServices :=
  match s.localServices[name]? with
  | none => s
  | some entry =>
    if s.isClient clientId then s
    else
      { s with
        localServices := s.localServices.insert name
          { entry with clients := entry.clients.insert clientId transport }
        clientIdToService := s.clientIdToService.insert clientId name }

/-- Forget the subscriptions of a client of a service. -/
def dropSubscriber (s : LocalServices) (name : Bytes) (clientId : Int) : LocalServices :=
  { s with clientIdToService := s.clientIdToService.erase clientId }.mapTopics fun t =>
    (t.removeTcpSubscriberFd clientId).removeShmSubscriberService name (UInt32.ofInt clientId)

def onServiceClientDisconnected (s : LocalServices) (name : Bytes) (clientId : Int) : LocalServices :=
  match s.localServices[name]? with
  | none => { s with clientIdToService := s.clientIdToService.erase clientId }
  | some entry =>
    if entry.clients.contains clientId then
      { s with
        localServices := s.localServices.insert name
          { entry with clients := entry.clients.erase clientId } }.dropSubscriber name clientId
    else { s with clientIdToService := s.clientIdToService.erase clientId }

/-- `MSG_SUBSCRIBE_BROADCAST` of a client. Only the id of the topic is looked at. -/
def subscribeBroadcast (s : LocalServices) (name : Bytes) (clientId : Int) (topicId : UInt32) :
    LocalServices :=
  match (s.localServices[name]?).bind fun entry => entry.clients[clientId]? with
  | none => s
  | some .tcp => s.mapTopics fun t => t.addTcpSubscriber topicId clientId
  | some .shm => s.mapTopics fun t => t.addShmSubscriberService topicId name (UInt32.ofInt clientId)

/-- `detachClientsFromEntry`, for an entry that is no longer in the table. -/
def detachClientsFromEntry (s : LocalServices) (name : Bytes) (entry : LocalServiceEntry) :
    LocalServices :=
  entry.clients.keys.foldl (fun s clientId => s.dropSubscriber name clientId) s

/-! ### Services -/

/-- The first part of `registerServiceInternal`, up to the registration. -/
def registerService (s : LocalServices) (info : ServiceInfo) (topics : List PublishedTopicInfo) :
    LocalServices :=
  if s.localServices.contains info.name then s
  else { s with localServices := s.localServices.insert info.name ⟨info, topics, ∅⟩ }

/-- The last part, when the registration has failed for good. -/
def abandonService (s : LocalServices) (name : Bytes) : LocalServices :=
  match s.localServices[name]? with
  | none => s
  | some entry =>
    { s with localServices := s.localServices.erase name }.detachClientsFromEntry name entry

def unregisterService (s : LocalServices) (name : Bytes) : LocalServices :=
  match s.localServices[name]? with
  | none => s
  | some entry =>
    ({ s with localServices := s.localServices.erase name }.detachClientsFromEntry
      name entry).mapTopics fun t => t.forgetPublishedTopicsByOwner name

/-- A publication is remembered when it is accepted, and with `allowPending` also when it could not be
    asked for. -/
def publishTopicForService (s : LocalServices) (serviceName topicName : Bytes) (idlHash : UInt32)
    (allowPending : Bool) (outcome : RequestOutcome) : Option ErrorCode × LocalServices :=
  let remembered := s.mapTopics fun t =>
    t.rememberPublishedTopic topicName (fnv1a32 topicName) serviceName idlHash
  if !s.localServices.contains serviceName then (some .errServiceNotFound, s)
  else
    match outcome with
    | .notConnected => if allowPending then (none, remembered) else (some .errSmUnreachable, s)
    | .failed code =>
      if allowPending ∧ code.isTransientSmError then (none, remembered) else (some code, s)
    | .malformed => (some .errDeserialize, s)
    | .answered false => (some .errRegisterFailed, s)
    | .answered true => (none, remembered)

/-- `publishTopicInternal`: the first service in the table counts as the publisher. -/
def publishTopic (s : LocalServices) (topicName : Bytes) (idlHash : UInt32)
    (outcome : RequestOutcome) : Option ErrorCode × LocalServices :=
  match s.localServices.minKey? with
  | none => (some .errServiceNotFound, s)
  | some name =>
    match outcome with
    | .notConnected => (some .errSendFailed, s)
    | outcome => s.publishTopicForService name topicName idlHash false outcome

/-! ### Broadcasts -/

/-- A TCP subscriber, unless it is stale. -/
def tcpTarget (s : LocalServices) (clientId : Int) : Option BroadcastTarget := do
  let name ← s.clientIdToService[clientId]?
  let entry ← s.localServices[name]?
  if entry.clients.contains clientId then some ⟨name, clientId⟩ else none

def shmTarget (s : LocalServices) (subscriber : ShmSubscriber) : Option BroadcastTarget := do
  let entry ← s.localServices[subscriber.serviceName]?
  let clientId := subscriber.clientId.toInt32.toInt
  if entry.clients.contains clientId then some ⟨subscriber.serviceName, clientId⟩ else none

/-- The clients that `broadcastInternal` sends to, in its order. Nothing but the id of the topic decides
    that: the service that broadcasts is not known here. -/
def broadcastTargets (s : LocalServices) (topicId : UInt32) : List BroadcastTarget :=
  (s.topicRuntime.topic topicId).tcpSubscribers.reverse.filterMap s.tcpTarget ++
    (s.topicRuntime.topic topicId).shmSubscribers.filterMap s.shmTarget

/-- `broadcastInternal`: stale TCP subscribers are removed, and the clients whose connection fails are
    disconnected when all have been sent to. -/
def broadcastInternal (s : LocalServices) (topicId : UInt32) (broken : BroadcastTarget → Bool) :
    LocalServices :=
  let stale := (s.topicRuntime.topic topicId).tcpSubscribers.filter fun c => (s.tcpTarget c).isNone
  let failed := ((s.topicRuntime.topic topicId).tcpSubscribers.reverse.filterMap s.tcpTarget).filter
    broken
  let s := s.mapTopics fun t => stale.foldl (fun t c => t.removeTcpSubscriber topicId c) t
  failed.foldl (fun s target => s.onServiceClientDisconnected target.serviceName target.clientId) s

end LocalServices

/-- Everything that can happen to the services of a runtime and their clients. -/
inductive LocalEvent where
  | registerService (info : ServiceInfo) (topics : List PublishedTopicInfo)
  | abandonService (name : Bytes)
  | publishTopicForService (serviceName topicName : Bytes) (idlHash : UInt32) (allowPending : Bool)
      (outcome : RequestOutcome)
  | publishTopic (topicName : Bytes) (idlHash : UInt32) (outcome : RequestOutcome)
  | unregisterService (name : Bytes)
  | accepted (name : Bytes) (clientId : Int) (transport : TransportType)
  | disconnected (name : Bytes) (clientId : Int)
  | subscribeBroadcast (name : Bytes) (clientId : Int) (topicId : UInt32)
  | broadcast (topicId : UInt32) (broken : BroadcastTarget → Bool)

def LocalServices.step (s : LocalServices) : LocalEvent → LocalServices
  | .registerService info topics => s.registerService info topics
  | .abandonService name => s.abandonService name
  | .publishTopicForService serviceName topicName idlHash allowPending outcome =>
    (s.publishTopicForService serviceName topicName idlHash allowPending outcome).2
  | .publishTopic topicName idlHash outcome => (s.publishTopic topicName idlHash outcome).2
  | .unregisterService name => s.unregisterService name
  | .accepted name clientId transport => s.onServiceClientAccepted name clientId transport
  | .disconnected name clientId => s.onServiceClientDisconnected name clientId
  | .subscribeBroadcast name clientId topicId => s.subscribeBroadcast name clientId topicId
  | .broadcast topicId broken => s.broadcastInternal topicId broken

/-- The subscriptions whose source callbacks a message of a publisher is dispatched to. -/
def TopicRuntime.reached (t : TopicRuntime) (publisher : ServiceIdentity) (id : UInt32) :
    List Subscription :=
  (t.topic id).subscriptions.filter fun sub =>
    sub.selector.matches publisher && sub.hasSourceCallback && sub.sourceCallback.isSome

/-- The other end of a client's connection: the runtime that has opened it, and the identity in the
    `ServiceState` of the connection, if there is one. -/
structure SubscriberLink where
  runtime : Nat
  info : Option ServiceIdentity
deriving DecidableEq, Repr

/-- The identity that `onDirectMessage` dispatches with. -/
def SubscriberLink.source (link : SubscriberLink) : ServiceIdentity := link.info.getD ⟨[], [], []⟩

/-- A runtime that hosts services and the runtimes of their clients. A client that knows whom it is
    connected to knows the service whose endpoint has accepted it. -/
structure TopicNetwork where
  publisher : LocalServices
  links : Table Int SubscriberLink
  subscribers : Table Nat TopicRuntime
  named : ∀ (name : Bytes) (entry : LocalServiceEntry),
    publisher.localServices[name]? = some entry → entry.info.name = name
  faithful : ∀ (clientId : Int) (link : SubscriberLink) (name : Bytes) (entry : LocalServiceEntry)
    (identity : ServiceIdentity), links[clientId]? = some link →
      publisher.localServices[name]? = some entry → entry.clients.contains clientId = true →
        link.info = some identity → identity = entry.info.identity

/-- A source callback that is called: its subscription and the runtime it belongs to. -/
structure Delivery where
  runtime : Nat
  subscription : Subscription
deriving DecidableEq, Repr

namespace TopicNetwork

def subscriber (n : TopicNetwork) (runtime : Nat) : TopicRuntime := n.subscribers[runtime]?.getD .init

/-- What a message on the connection of a client leads to. -/
def received (n : TopicNetwork) (topicId : UInt32) (clientId : Int) : List Delivery :=
  match n.links[clientId]? with
  | none => []
  | some link =>
    ((n.subscriber link.runtime).reached link.source topicId).map fun sub => ⟨link.runtime, sub⟩

def broadcast (n : TopicNetwork) (topicId : UInt32) : List Delivery :=
  (n.publisher.broadcastTargets topicId).flatMap fun target => n.received topicId target.clientId

/-- The `Broadcast` method that is generated for a topic of a service. The service takes no part. -/
def stubBroadcast (n : TopicNetwork) (_service topicName : Bytes) : List Delivery :=
  n.broadcast (Idl.fnv1aHash topicName)

end TopicNetwork

end OmniBinder
