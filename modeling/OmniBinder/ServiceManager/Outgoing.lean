/-
Module: OmniBinder.ServiceManager.Outgoing
Purpose: The messages the ServiceManager exchanges with its clients: the type codes of
  `include/omnibinder/message.h`, what a client can send, and every reply and notification with the
  payload its handler writes.
Trusted boundary: human-reviewed spec
Main exports: ReceivedMessage, Outgoing.message
-/
import OmniBinder.Core.ServiceCodec

namespace OmniBinder.ServiceManager

/-! ### Type codes -/

namespace MessageType

def register : UInt16 := 0x0001
def registerReply : UInt16 := 0x0002
def unregister : UInt16 := 0x0003
def unregisterReply : UInt16 := 0x0004
def controlHeartbeat : UInt16 := 0x0007
def controlHeartbeatAck : UInt16 := 0x0008
def lookup : UInt16 := 0x0010
def lookupReply : UInt16 := 0x0011
def listServices : UInt16 := 0x0012
def listServicesReply : UInt16 := 0x0013
def queryInterfaces : UInt16 := 0x0014
def queryInterfacesReply : UInt16 := 0x0015
def listInstances : UInt16 := 0x0016
def listInstancesReply : UInt16 := 0x0017
def subscribeServiceWatch : UInt16 := 0x0027
def subscribeServiceWatchReply : UInt16 := 0x0028
def unsubscribeServiceWatch : UInt16 := 0x0029
def serviceWatchNotify : UInt16 := 0x002A
def publishTopic : UInt16 := 0x0030
def publishTopicReply : UInt16 := 0x0031
def subscribeTopic : UInt16 := 0x0032
def subscribeTopicReply : UInt16 := 0x0033
def topicPublisherNotify : UInt16 := 0x0034
def unpublishTopic : UInt16 := 0x0035
def unsubscribeTopic : UInt16 := 0x0036
def queryPublishedTopics : UInt16 := 0x0037
def queryPublishedTopicsReply : UInt16 := 0x0038
def runtimeHello : UInt16 := 0x0040
def runtimeHelloReply : UInt16 := 0x0041
def diagSetLogLevel : UInt16 := 0x0042
def diagSetLogLevelReply : UInt16 := 0x0043
def diagWatchStart : UInt16 := 0x0044
def diagWatchStartReply : UInt16 := 0x0045
def diagWatchStop : UInt16 := 0x0046
def diagWatchStopReply : UInt16 := 0x0047
def runtimeList : UInt16 := 0x0049
def runtimeListReply : UInt16 := 0x004A

end MessageType

/-- A message of a client. The frame it came in bounds its payload. -/
structure ReceivedMessage where
  type : UInt16
  sequence : UInt32
  payload : Bytes
  fits : payload.length ≤ maxMessageSize - messageHeaderSize

/-! ### What the ServiceManager sends -/

inductive Outgoing where
  | registerReply (handle : UInt32)
  | boolReply (type : UInt16) (ok : Bool)
  | controlHeartbeatAck (incarnationId : UInt32)
  | lookupReply (found : Option ServiceInfo)
  | listInstancesReply (found : Bool) (instances : List ServiceInfo)
  | listServicesReply (services : List ServiceInfo)
  | queryInterfacesReply (found : Option (List InterfaceInfo))
  | queryPublishedTopicsReply (found : Bool) (topics : List Bytes)
  | serviceWatchNotify (watchId : UInt64) (identity : ServiceIdentity) (online : Bool)
  | subscribeTopicReply (success : Bool) (idlHash : UInt32)
  | topicPublisherNotify (topic : Bytes) (info : ServiceInfo) (idlHash : UInt32)
  | runtimeHelloReply (ack : SessionHelloAck)
  | runtimeListReply (infos : List RuntimeInfo)
  | diagSetLogLevel (level : UInt32)
  | diagWatchStart
  | diagWatchStop
deriving DecidableEq, Repr

namespace Outgoing

def type : Outgoing → UInt16
  | registerReply _ => MessageType.registerReply
  | boolReply type _ => type
  | controlHeartbeatAck _ => MessageType.controlHeartbeatAck
  | lookupReply _ => MessageType.lookupReply
  | listInstancesReply _ _ => MessageType.listInstancesReply
  | listServicesReply _ => MessageType.listServicesReply
  | queryInterfacesReply _ => MessageType.queryInterfacesReply
  | queryPublishedTopicsReply _ _ => MessageType.queryPublishedTopicsReply
  | serviceWatchNotify _ _ _ => MessageType.serviceWatchNotify
  | subscribeTopicReply _ _ => MessageType.subscribeTopicReply
  | topicPublisherNotify _ _ _ => MessageType.topicPublisherNotify
  | runtimeHelloReply _ => MessageType.runtimeHelloReply
  | runtimeListReply _ => MessageType.runtimeListReply
  | diagSetLogLevel _ => MessageType.diagSetLogLevel
  | diagWatchStart => MessageType.diagWatchStart
  | diagWatchStop => MessageType.diagWatchStop

/-- Writes whose results the handler does not look at. -/
def unchecked (writes : List Write) (buf : Buffer) : Buffer :=
  writes.foldl (fun buf write => (write buf).2) buf

/-- Unchecked writes and then writes of which the first that fails gives up the message. -/
def checkedAfter (writes checked : List Write) : Option Buffer :=
  match writeAll checked (unchecked writes Buffer.init) with
  | (true, buf) => some buf
  | (false, _) => none

/-- The entries of a runtime list and their number. An entry that cannot be written is taken back. -/
def runtimeEntries (alloc : Allocator) : List RuntimeInfo → Buffer × Nat → Buffer × Nat
  | [], done => done
  | info :: infos, (entries, count) =>
    match serializeRuntimeInfo alloc info entries with
    | (true, buf) => runtimeEntries alloc infos (buf, count + 1)
    | (false, buf) => runtimeEntries alloc infos (buf.setWritePosition alloc entries.writePos, count)

/-- The payload, unless the handler gives up because a part of it cannot be written. -/
def payload (alloc : Allocator) : Outgoing → Option Buffer
  | registerReply handle => some (unchecked [(·.writeUint32 alloc handle)] Buffer.init)
  | boolReply _ ok => some (unchecked [(·.writeBool alloc ok)] Buffer.init)
  | controlHeartbeatAck incarnationId =>
    some (unchecked [(·.writeUint32 alloc incarnationId)] Buffer.init)
  | lookupReply found =>
    checkedAfter [(·.writeBool alloc found.isSome)] (found.toList.map (serializeServiceInfo alloc))
  | listInstancesReply found instances =>
    checkedAfter
      [(·.writeBool alloc found), (·.writeUint32 alloc (UInt32.ofNat instances.length))]
      (if found then instances.map (serializeServiceInfo alloc) else [])
  | listServicesReply services =>
    checkedAfter [(·.writeUint32 alloc (UInt32.ofNat services.length))]
      (services.map (serializeServiceInfo alloc))
  | queryInterfacesReply none => some (unchecked [(·.writeBool alloc false)] Buffer.init)
  | queryInterfacesReply (some interfaces) =>
    checkedAfter
      [(·.writeBool alloc true), (·.writeUint32 alloc (UInt32.ofNat interfaces.length))]
      (interfaces.map (serializeInterfaceInfo alloc))
  | queryPublishedTopicsReply found topics =>
    checkedAfter [] [serializePublishedTopicsReply alloc found topics]
  | serviceWatchNotify watchId identity online =>
    some (unchecked [(·.writeUint64 alloc watchId), (·.writeString alloc identity.name),
      (·.writeString alloc identity.hostId), (·.writeString alloc identity.instanceId),
      (·.writeBool alloc online)] Buffer.init)
  | subscribeTopicReply success idlHash =>
    some (unchecked ((·.writeBool alloc success) ::
      if success then [(·.writeUint32 alloc idlHash)] else []) Buffer.init)
  | topicPublisherNotify topic info idlHash =>
    checkedAfter [(·.writeString alloc topic)]
      [serializeServiceInfo alloc info, (·.writeUint32 alloc idlHash)]
  | runtimeHelloReply ack => checkedAfter [] [serializeSessionHelloAck alloc ack]
  | runtimeListReply infos =>
    let (entries, count) := runtimeEntries alloc infos (Buffer.init, 0)
    some (unchecked ((·.writeUint32 alloc (UInt32.ofNat count)) ::
      if entries.writePos > 0 then [(·.writeRaw alloc entries.bytes)] else []) Buffer.init)
  | diagSetLogLevel level => some (unchecked [(·.writeUint32 alloc level)] Buffer.init)
  | diagWatchStart => some Buffer.init
  | diagWatchStop => some Buffer.init

/-- The message under a sequence number. -/
def message (out : Outgoing) (sequence : UInt32) : Option Message :=
  (out.payload .succeeds).map fun payload => { Message.ofType out.type sequence with payload }

end Outgoing

end OmniBinder.ServiceManager
