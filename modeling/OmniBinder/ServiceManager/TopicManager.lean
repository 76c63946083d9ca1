/-
Module: OmniBinder.ServiceManager.TopicManager
Purpose: The topics of `service_manager/topic_manager.cpp`: publishers and subscribers by publisher
  service and topic name, the indices by connection and the counters behind the limits, and every
  operation that changes them as one step.
Trusted boundary: human-reviewed spec
Main exports: TopicTables.getMatchingPublishers, TopicTables.runOperations
-/
import OmniBinder.Core.ServiceCodec
import OmniBinder.Lib.Table

namespace OmniBinder.ServiceManager

def maxTopicsGlobal : Nat := 16384

def maxTopicPublicationsPerConnection : Nat := 4096

def maxTopicSubscriptionsPerConnection : Nat := 4096

def maxSubscribersPerTopic : Nat := 4096

def maxTopicSubscriptionsGlobal : Nat := 16384

/-- `TopicSubscribeMode`: any service, every instance of a service, or one instance. -/
inductive TopicSubscribeMode where
  | topicOnly
  | service
  | serviceInstance
deriving DecidableEq, Repr

structure TopicSubscriptionFilter where
  mode : TopicSubscribeMode
  publisherService : Bytes
  hostId : Bytes
  instanceId : Bytes
deriving DecidableEq, Repr

namespace TopicSubscriptionFilter

/-- The default constructor. -/
def init : TopicSubscriptionFilter := ⟨.topicOnly, [], [], []⟩

/-- A length in decimal, a bar and the text. -/
def sized (text : Bytes) : Bytes := decimal text.length ++ ascii "|" ++ text

def key (f : TopicSubscriptionFilter) : Bytes :=
  match f.mode with
  | .serviceInstance => ascii "I|" ++ sized f.publisherService ++ sized f.instanceId
  | .service => ascii "S|" ++ sized f.publisherService
  | .topicOnly => ascii "T"

end TopicSubscriptionFilter

def TopicSubscriptionFilter.matches (f : TopicSubscriptionFilter) (publisher : ServiceInfo) : Bool :=
  if f.mode = .topicOnly then true
  else if publisher.name ≠ f.publisherService then false
  else if f.mode = .serviceInstance then publisher.instanceId == f.instanceId
  else true

structure PublisherSlot where
  fd : Int
  info : ServiceInfo
  idlHash : UInt32
deriving DecidableEq, Repr

structure TopicEntry where
  serviceName : Bytes
  topicName : Bytes
  publishers : Table Bytes PublisherSlot
  subscribers : NestedTable Int Bytes TopicSubscriptionFilter

structure TopicPublisherView where
  info : ServiceInfo
  idlHash : UInt32
deriving DecidableEq, Repr

/-- The bare tables of the topic manager. -/
structure TopicTables where
  topics : Table Bytes TopicEntry
  topicNameRefs : Table Bytes Nat
  fdSubscriptions : SetIndex Int Bytes
  fdPublications : SetIndex Int Bytes
  fdSubscriptionCounts : Table Int Nat
  totalSubscriptions : Nat

namespace TopicTables

def init : TopicTables := ⟨∅, ∅, .empty, .empty, ∅, 0⟩

/-- The length of the service name keeps the two parts apart. -/
def entryKey (serviceName topicName : Bytes) : Bytes :=
  decimal serviceName.length ++ ascii ":" ++ serviceName ++ topicName

def releaseTopicNameRef (m : TopicTables) (topicName : Bytes) : TopicTables :=
  { m with
    topicNameRefs := m.topicNameRefs.adjust topicName fun n => if n > 1 then some (n - 1) else none }

def eraseEntryIfUnused (m : TopicTables) (ekey : Bytes) : TopicTables :=
  match m.topics[ekey]? with
  | none => m
  | some entry =>
    if entry.publishers.isEmpty ∧ entry.subscribers.isEmpty then
      { m.releaseTopicNameRef entry.topicName with topics := m.topics.erase ekey }
    else m

/-- Find the entry under a key, or create it; a new entry counts for its topic name. -/
def ensureEntry (m : TopicTables) (serviceName topicName : Bytes) : TopicTables :=
  if m.topics.contains (entryKey serviceName topicName) then m
  else
    { m with
      topics := m.topics.insert (entryKey serviceName topicName) ⟨serviceName, topicName, ∅, .empty⟩
      topicNameRefs := m.topicNameRefs.grow topicName fun n => n.getD 0 + 1 }

/-- Change the entry under a key in place. -/
def modifyEntry (m : TopicTables) (ekey : Bytes) (f : TopicEntry → TopicEntry) : TopicTables :=
  { m with topics := m.topics.adjust ekey fun entry => some (f entry) }

/-- A new topic name that the limit has no room for. -/
def topicNameRefused (m : TopicTables) (ekey topic : Bytes) : Bool :=
  !m.topics.contains ekey && !m.topicNameRefs.contains topic &&
    maxTopicsGlobal ≤ m.topicNameRefs.size

/-- The other topics a service publishes at the moment. -/
def otherPublications (m : TopicTables) (ekey serviceName : Bytes) : List TopicEntry :=
  (m.topics.toList.filter fun (k, entry) =>
    k ≠ ekey ∧ entry.serviceName = serviceName ∧ !entry.publishers.isEmpty).map Prod.snd

/-- The slot of the instance is overwritten, also one that another connection holds. -/
def registerPublisher (m : TopicTables) (topic : Bytes) (publisherInfo : ServiceInfo)
    (publisherFd : Int) (idlHash : UInt32) : Bool × TopicTables :=
  if topic.isEmpty ∨ topic.length > maxTopicNameLength then (false, m)
  else if publisherInfo.name.isEmpty ∨ publisherInfo.name.length > maxServiceNameLength then (false, m)
  else
    let instanceKey := makeServiceInstanceKey publisherInfo.instanceId
    let ekey := entryKey publisherInfo.name topic
    let others := m.otherPublications ekey publisherInfo.name
    if m.topicNameRefused ekey topic then (false, m)
    else if ekey ∉ m.fdPublications.values publisherFd
        ∧ m.fdPublications.count publisherFd ≥ maxTopicPublicationsPerConnection then (false, m)
    else if 1 + others.length > maxPublishedTopics
        ∨ topic.length + (others.map fun entry => entry.topicName.length).sum >
          maxPublishedTopicsBytes then (false, m)
    else
      let m := (m.ensureEntry publisherInfo.name topic).modifyEntry ekey fun entry =>
        { entry with
          publishers := entry.publishers.insert instanceKey ⟨publisherFd, publisherInfo, idlHash⟩ }
      (true, { m with fdPublications := m.fdPublications.add publisherFd ekey })

/-- Erase the slots of some connections from an entry, and the entry from the index of each. -/
def dropSlots (m : TopicTables) (ekey : Bytes) (drop : Int → Bool) : TopicTables :=
  match m.topics[ekey]? with
  | none => m
  | some entry =>
    let dropped := (entry.publishers.toList.map fun (_, slot) => slot.fd).filter drop
    { m.modifyEntry ekey fun entry =>
        { entry with publishers := entry.publishers.filter fun _ slot => !drop slot.fd } with
      fdPublications := dropped.foldl (fun index fd => index.remove fd ekey) m.fdPublications }

/-- Visit the entries in the order of their keys. -/
def forEachEntry (m : TopicTables) (select : TopicEntry → Bool)
    (visit : TopicTables → Bytes → TopicTables) : TopicTables :=
  m.topics.keys.foldl
    (fun m ekey =>
      match m.topics[ekey]? with
      | none => m
      | some entry => if select entry then visit m ekey else m) m

/-- Without `filterFd` the slots of every connection go. -/
def removePublisherSlots (m : TopicTables) (topicName : Bytes) (publisherFd : Int)
    (filterFd : Bool) : TopicTables :=
  m.forEachEntry (fun entry => entry.topicName = topicName) fun m ekey =>
    (m.dropSlots ekey fun fd => !filterFd || fd = publisherFd).eraseEntryIfUnused ekey

def removePublisher (m : TopicTables) (topic : Bytes) (publisherFd : Int) : TopicTables :=
  if topic.isEmpty ∨ topic.length > maxTopicNameLength then m
  else m.removePublisherSlots topic publisherFd true

def removePublishersByService (m : TopicTables) (serviceName : Bytes) (publisherFd : Int) :
    TopicTables :=
  let m := m.forEachEntry (fun entry => entry.serviceName = serviceName) fun m ekey =>
    m.dropSlots ekey fun fd => fd = publisherFd
  m.forEachEntry (fun entry => entry.serviceName = serviceName) eraseEntryIfUnused

/-- A selector that is stored already, or for which there is no room, is refused. -/
def addSubscriber (m : TopicTables) (topic : Bytes) (selector : TopicSubscriptionFilter)
    (subscriberFd : Int) : Bool × TopicTables :=
  if topic.isEmpty ∨ topic.length > maxTopicNameLength then (false, m)
  else if selector.publisherService.length > maxServiceNameLength then (false, m)
  else
    let fdCount := m.fdSubscriptionCounts[subscriberFd]?.getD 0
    let ekey := entryKey selector.publisherService topic
    if fdCount ≥ maxTopicSubscriptionsPerConnection then (false, m)
    else if m.totalSubscriptions ≥ maxTopicSubscriptionsGlobal then (false, m)
    else if m.topicNameRefused ekey topic then (false, m)
    else
      let m := m.ensureEntry selector.publisherService topic
      match m.topics[ekey]? with
      | none => (false, m)
      | some entry =>
        if (entry.subscribers.get? subscriberFd selector.key).isSome then (false, m)
        else if !entry.subscribers.hasKey subscriberFd
            ∧ entry.subscribers.size ≥ maxSubscribersPerTopic then (false, m)
        else
          let m := m.modifyEntry ekey fun entry =>
            { entry with subscribers := entry.subscribers.set subscriberFd selector.key selector }
          (true,
            { m with
              fdSubscriptions := m.fdSubscriptions.add subscriberFd ekey
              fdSubscriptionCounts := m.fdSubscriptionCounts.insert subscriberFd (fdCount + 1)
              totalSubscriptions := m.totalSubscriptions + 1 })

def removeSubscriber (m : TopicTables) (topic : Bytes) (selector : TopicSubscriptionFilter)
    (subscriberFd : Int) : TopicTables :=
  if topic.isEmpty ∨ topic.length > maxTopicNameLength then m
  else
    let ekey := entryKey selector.publisherService topic
    match m.topics[ekey]? with
    | none => m
    | some entry =>
      if (entry.subscribers.get? subscriberFd selector.key).isNone then m
      else
        let subscribers := entry.subscribers.erase subscriberFd selector.key
        let m := m.modifyEntry ekey fun entry => { entry with subscribers := subscribers }
        let m :=
          { m with
            totalSubscriptions := m.totalSubscriptions - 1
            fdSubscriptionCounts := m.fdSubscriptionCounts.adjust subscriberFd fun n =>
              if n > 1 then some (n - 1) else none
            fdSubscriptions :=
              if subscribers.hasKey subscriberFd then m.fdSubscriptions
              else m.fdSubscriptions.remove subscriberFd ekey }
        m.eraseEntryIfUnused ekey

/-- One turn of the first loop of `removeByFd`. -/
def dropPublisher (fd : Int) (m : TopicTables) (ekey : Bytes) : TopicTables :=
  (m.modifyEntry ekey fun entry =>
    { entry with publishers := entry.publishers.filter fun _ slot => slot.fd ≠ fd }).eraseEntryIfUnused
      ekey

/-- One turn of the second loop of `removeByFd`. -/
def dropSubscriber (fd : Int) (m : TopicTables) (ekey : Bytes) : TopicTables :=
  match m.topics[ekey]? with
  | none => m
  | some entry =>
    let m := { m with
      totalSubscriptions := m.totalSubscriptions - (entry.subscribers.entries fd).length }
    (m.modifyEntry ekey fun entry =>
      { entry with subscribers := entry.subscribers.eraseKey fd }).eraseEntryIfUnused ekey

def removeByFd (m : TopicTables) (fd : Int) : TopicTables :=
  let pubKeys := m.fdPublications.values fd
  let m := pubKeys.foldl (dropPublisher fd) { m with fdPublications := m.fdPublications.eraseKey fd }
  let subKeys := m.fdSubscriptions.values fd
  let m := subKeys.foldl (dropSubscriber fd) { m with fdSubscriptions := m.fdSubscriptions.eraseKey fd }
  { m with fdSubscriptionCounts := m.fdSubscriptionCounts.erase fd }

/-! ### Queries -/

/-- The connections with a subscription to the topic that the publisher matches, each once. -/
def getMatchingSubscribers (m : TopicTables) (topic : Bytes) (publisher : ServiceInfo) : List Int :=
  let fds := m.topics.toList.flatMap fun (_, entry) =>
    if entry.topicName ≠ topic then []
    else
      (entry.subscribers.toList.filter fun (_, _, selector) => selector.matches publisher).map
        fun (fd, _, _) => fd
  (fds.foldl (fun (set : KeySet Int) fd => set.insert fd) ∅).toList

/-- The publishers of an entry that a selector asks for. For a service the entry decides, and only
    for an instance the publishers are looked at. -/
def entryPublishers (topic : Bytes) (selector : TopicSubscriptionFilter) (entry : TopicEntry) :
    List PublisherSlot :=
  if entry.topicName ≠ topic then []
  else if selector.mode ≠ .topicOnly ∧ entry.serviceName ≠ selector.publisherService then []
  else
    (entry.publishers.toList.map Prod.snd).filter fun slot =>
      !(selector.mode = .serviceInstance ∧ !selector.matches slot.info)

def getMatchingPublishers (m : TopicTables) (topic : Bytes) (selector : TopicSubscriptionFilter) :
    List TopicPublisherView :=
  (m.topics.toList.flatMap fun (_, entry) => entryPublishers topic selector entry).map
    fun slot => ⟨slot.info, slot.idlHash⟩

/-- The hash of the first publisher the selector asks for. -/
def getIdlHash (m : TopicTables) (topic : Bytes) (selector : TopicSubscriptionFilter) :
    Option UInt32 :=
  (m.topics.toList.flatMap fun (_, entry) => entryPublishers topic selector entry).head?.map
    PublisherSlot.idlHash

/-- Sorted, each topic once. -/
def getPublishedTopics (m : TopicTables) (serviceName : Bytes) : List Bytes :=
  let names := (m.topics.toList.filter fun (_, entry) =>
    entry.serviceName = serviceName ∧ !entry.publishers.isEmpty).map fun (_, entry) => entry.topicName
  (names.foldl (fun (set : KeySet Bytes) name => set.insert name) ∅).toList

end TopicTables

namespace TopicTables

/-- `removePublisher` without a connection. -/
def removeAllPublishers (m : TopicTables) (topic : Bytes) : TopicTables :=
  if topic.isEmpty ∨ topic.length > maxTopicNameLength then m
  else m.removePublisherSlots topic (-1) false

/-- One turn of the loop of `removeSubscriber` without a selector. -/
def dropSubscriptions (subscriberFd : Int) (m : TopicTables) (ekey : Bytes) : TopicTables :=
  match m.topics[ekey]? with
  | none => m
  | some entry =>
    if !entry.subscribers.hasKey subscriberFd then m
    else
      let removed := (entry.subscribers.entries subscriberFd).length
      let m :=
        { m.modifyEntry ekey fun entry =>
            { entry with subscribers := entry.subscribers.eraseKey subscriberFd } with
          totalSubscriptions := m.totalSubscriptions - removed
          fdSubscriptions := m.fdSubscriptions.remove subscriberFd ekey
          fdSubscriptionCounts := m.fdSubscriptionCounts.adjust subscriberFd fun n =>
            if n > removed then some (n - removed) else none }
      m.eraseEntryIfUnused ekey

/-- `removeSubscriber` without a selector. -/
def removeAllSubscriptions (m : TopicTables) (topic : Bytes) (subscriberFd : Int) : TopicTables :=
  if topic.isEmpty ∨ topic.length > maxTopicNameLength then m
  else m.forEachEntry (fun entry => entry.topicName = topic) (dropSubscriptions subscriberFd)

/-- The hash of the first publisher in the order of the table. -/
def setFirstHash (idlHash : UInt32) (entry : TopicEntry) : TopicEntry :=
  match entry.publishers.toList.head? with
  | none => entry
  | some (instanceKey, slot) =>
    { entry with publishers := entry.publishers.insert instanceKey { slot with idlHash := idlHash } }

/-- Only the first entry of the topic that has a publisher is changed. -/
def setIdlHash (m : TopicTables) (topic : Bytes) (idlHash : UInt32) : TopicTables :=
  match m.topics.toList.find? fun (_, entry) =>
      entry.topicName = topic ∧ !entry.publishers.isEmpty with
  | none => m
  | some (ekey, _) => m.modifyEntry ekey (setFirstHash idlHash)

end TopicTables

/-- The operations of the topic manager that change it. A subscription without a selector is one with
    the default selector. -/
inductive TopicOperation where
  | registerPublisher (topic : Bytes) (publisherInfo : ServiceInfo) (publisherFd : Int)
      (idlHash : UInt32)
  | removeAllPublishers (topic : Bytes)
  | removePublisher (topic : Bytes) (publisherFd : Int)
  | addSubscriber (topic : Bytes) (selector : TopicSubscriptionFilter) (subscriberFd : Int)
  | removeAllSubscriptions (topic : Bytes) (subscriberFd : Int)
  | removeSubscriber (topic : Bytes) (selector : TopicSubscriptionFilter) (subscriberFd : Int)
  | removeByFd (fd : Int)
  | removePublishersByService (serviceName : Bytes) (publisherFd : Int)
  | setIdlHash (topic : Bytes) (idlHash : UInt32)

namespace TopicTables

/-- One operation; a refused one may still leave an empty entry behind. -/
def perform (m : TopicTables) : TopicOperation → TopicTables
  | .registerPublisher topic info fd idlHash => (m.registerPublisher topic info fd idlHash).2
  | .removeAllPublishers topic => m.removeAllPublishers topic
  | .removePublisher topic fd => m.removePublisher topic fd
  | .addSubscriber topic selector fd => (m.addSubscriber topic selector fd).2
  | .removeAllSubscriptions topic fd => m.removeAllSubscriptions topic fd
  | .removeSubscriber topic selector fd => m.removeSubscriber topic selector fd
  | .removeByFd fd => m.removeByFd fd
  | .removePublishersByService serviceName fd => m.removePublishersByService serviceName fd
  | .setIdlHash topic idlHash => m.setIdlHash topic idlHash

def runOperations (m : TopicTables) (operations : List TopicOperation) : TopicTables :=
  operations.foldl perform m

end TopicTables

end OmniBinder.ServiceManager
