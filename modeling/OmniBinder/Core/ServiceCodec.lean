/-
Module: OmniBinder.Core.ServiceCodec
Purpose: Session negotiation shared by the data plane and the ServiceManager with its payloads, the
  records the control plane exchanges and their codecs, and the deserializers of
  `include/omnibinder/message.h` as the templates they are, over the two buffer types they are used with.
Trusted boundary: human-reviewed spec
Main exports: clampHeartbeatInterval, MethodInfo, ByteReader
-/
import OmniBinder.Core.Message

namespace OmniBinder

def defaultHeartbeatInterval : UInt32 := 3000

def defaultHeartbeatTimeout : UInt32 := 10000

def minHeartbeatIntervalMs : UInt32 := 100

def heartbeatMissedFactor : Nat := 3

def sessionProtocolVersion : UInt32 := 1

def clampHeartbeatInterval (intervalMs : UInt32) : UInt32 :=
  if intervalMs = 0 then defaultHeartbeatInterval
  else if intervalMs < minHeartbeatIntervalMs then minHeartbeatIntervalMs
  else intervalMs

/-- The 64-bit arithmetic of the source cannot wrap here, so it is that of the naturals. -/
def negotiateSessionTimeout (intervalMs requestedMs maxTimeoutMs : UInt32) : UInt32 :=
  let floorMs := intervalMs.toNat * heartbeatMissedFactor
  let effective := if requestedMs = 0 then floorMs else requestedMs.toNat
  let effective :=
    if requestedMs = 0 ∧ effective < defaultHeartbeatTimeout.toNat then
      defaultHeartbeatTimeout.toNat
    else effective
  let effective := if effective < floorMs then floorMs else effective
  let effective :=
    if maxTimeoutMs ≠ 0 ∧ effective > maxTimeoutMs.toNat then maxTimeoutMs.toNat else effective
  let effective := if effective > 0xFFFFFFFF then 0xFFFFFFFF else effective
  if effective = 0 then 1 else UInt32.ofNat effective

/-- The parts are joined by the unit separator. -/
def makeRuntimeSessionKey (hostId runtimeId : Bytes) : Bytes := hostId ++ 0x1F :: runtimeId

structure SessionHello where
  version : UInt32
  runtimeId : Bytes
  incarnationId : UInt32
  heartbeatIntervalMs : UInt32
  requestedTimeoutMs : UInt32
  capabilities : UInt32
  hostId : Bytes
  processName : Bytes
  pid : UInt32
deriving DecidableEq, Repr

def deserializeSessionHello : View SessionHello := do
  let version ← tryReadUint32
  let runtimeId ← tryReadString
  let incarnationId ← tryReadUint32
  let heartbeatIntervalMs ← tryReadUint32
  let requestedTimeoutMs ← tryReadUint32
  let capabilities ← tryReadUint32
  let hostId ← tryReadString
  let processName ← tryReadString
  let pid ← tryReadUint32
  return ⟨version, runtimeId, incarnationId, heartbeatIntervalMs, requestedTimeoutMs, capabilities,
    hostId, processName, pid⟩

structure SessionHelloAck where
  version : UInt32
  status : UInt32
  acceptedIntervalMs : UInt32
  effectiveTimeoutMs : UInt32
  peerIncarnationId : UInt32
deriving DecidableEq, Repr

def sessionStatusOk : UInt32 := 0

def sessionStatusClamped : UInt32 := 1

def serializeSessionHelloAck (alloc : Allocator) (ack : SessionHelloAck) (buf : Buffer) :
    Bool × Buffer :=
  Message.thenWrite (Message.thenWrite (Message.thenWrite (Message.thenWrite
    (buf.writeUint32 alloc ack.version)
    (·.writeUint32 alloc ack.status))
    (·.writeUint32 alloc ack.acceptedIntervalMs))
    (·.writeUint32 alloc ack.effectiveTimeoutMs))
    (·.writeUint32 alloc ack.peerIncarnationId)

/-- The decimal text of a number, as `std::to_string` yields it. -/
def decimal (n : Nat) : Bytes := (Nat.toDigits 10 n).map fun c => UInt8.ofNat c.toNat

theorem toNat_digit {n : Nat} {c : Char} (h : c ∈ Nat.toDigits 10 n) : 48 ≤ c.toNat ∧ c.toNat ≤ 57 := by
  have hdigit := Nat.isDigit_of_mem_toDigits (by decide) (by decide) h
  rw [Char.isDigit, Bool.and_eq_true, decide_eq_true_eq, decide_eq_true_eq] at hdigit
  exact ⟨UInt32.le_iff_toNat_le.mp hdigit.1, UInt32.le_iff_toNat_le.mp hdigit.2⟩

/-- Only digits occur in a decimal text. -/
theorem decimal_digit {n : Nat} {byte : UInt8} (h : byte ∈ decimal n) :
    48 ≤ byte.toNat ∧ byte.toNat ≤ 57 := by
  obtain ⟨c, hc, rfl⟩ := List.mem_map.mp h
  have hrange := toNat_digit hc
  have hsmall : (UInt8.ofNat c.toNat).toNat = c.toNat := 
    UInt8.toNat_ofNat_of_lt (lt_of_le_of_lt hrange.2 (by decide))
  omega

theorem decimal_injective {m n : Nat} (h : decimal m = decimal n) : m = n := by
  -- the conversion of digits to bytes can be undone
  have hchars : ∀ k, (decimal k).map (fun byte => Char.ofNat byte.toNat) = Nat.toDigits 10 k := by
    intro k
    rw [decimal, List.map_map]
    refine (List.map_congr_left fun c hc => ?_).trans (List.map_id _)
    have hsmall : (UInt8.ofNat c.toNat).toNat = c.toNat :=
      UInt8.toNat_ofNat_of_lt (lt_of_le_of_lt (toNat_digit hc).2 (by decide))
    simp [hsmall]
  have hdigits : Nat.toDigits 10 m = Nat.toDigits 10 n := by rw [← hchars m, h, hchars n]
  rw [← Nat.ofDigitChars_toDigits (b := 10) (n := m) (by decide) (by decide), hdigits,
    Nat.ofDigitChars_toDigits (by decide) (by decide)]

/-- A text behind its length and a separator that is no digit can be told from what follows it. -/
theorem sized_append_inj (sep : UInt8) (hsep : 57 < sep.toNat) {text text' xs ys : Bytes} :
    decimal text.length ++ sep :: (text ++ xs) = decimal text'.length ++ sep :: (text' ++ ys) ↔
      text = text' ∧ xs = ys := by
  constructor
  · intro h
    have habsent : ∀ k, sep ∉ decimal k := by
      intro k hmem
      have := decimal_digit hmem
      omega
    obtain ⟨hlen, hrest⟩ := append_separator_inj (habsent _) (habsent _) h
    exact List.append_inj hrest (decimal_injective hlen)
  · rintro ⟨rfl, rfl⟩
    rfl

/-- The name a session goes by when the hello carries none. -/
def effectiveRuntimeId (runtimeId processName : Bytes) (pid : UInt32) : Bytes :=
  let named := if runtimeId.isEmpty then processName else runtimeId
  if named.isEmpty then ascii "runtime-" ++ decimal pid.toNat else named

def maxPublishedTopics : Nat := 4096

def maxPublishedTopicsBytes : Nat := 512 * 1024

/-- `OMNI_LOG_INFO`. -/
def logInfo : UInt32 := 3

/-- `OMNI_LOG_OFF`, the largest log level. -/
def logOff : UInt32 := 6

/-! ### The records -/

structure MethodInfo where
  methodId : UInt32
  idlHash : UInt32
  name : Bytes
  paramTypes : Bytes
  returnType : Bytes
deriving DecidableEq, Repr

structure InterfaceInfo where
  interfaceId : UInt32
  name : Bytes
  methods : List MethodInfo
deriving DecidableEq, Repr

structure ServiceInfo where
  name : Bytes
  host : Bytes
  port : UInt16
  hostId : Bytes
  instanceId : Bytes
  reqRingCapacity : Nat
  respRingCapacity : Nat
  interfaces : List InterfaceInfo
deriving DecidableEq, Repr

/-- The default constructor. -/
def ServiceInfo.init : ServiceInfo := ⟨[], [], 0, [], [], 0, 0, []⟩

/-- The host is where the instance runs at the moment; the identity proper is the other two fields. -/
structure ServiceIdentity where
  name : Bytes
  hostId : Bytes
  instanceId : Bytes
deriving DecidableEq, Repr

def ServiceInfo.identity (info : ServiceInfo) : ServiceIdentity :=
  ⟨info.name, info.hostId, info.instanceId⟩

/-- The key of an instance is its instance id; the host takes no part in it. -/
def makeServiceInstanceKey (instanceId : Bytes) : Bytes := instanceId

def makeServiceIdentityKey (identity : ServiceIdentity) : Bytes :=
  decimal identity.name.length ++ ascii "|" ++ identity.name ++ ascii "|"
    ++ decimal identity.instanceId.length ++ ascii "|" ++ identity.instanceId

structure RuntimeInfo where
  pid : UInt32
  processName : Bytes
  role : Bytes
  logLevel : UInt32
  diagCapabilities : UInt32
  services : List Bytes
  sessionVersion : UInt32
  runtimeId : Bytes
  incarnationId : UInt32
  heartbeatIntervalMs : UInt32
  requestedTimeoutMs : UInt32
  hostId : Bytes
deriving DecidableEq, Repr

/-! ### Reading -/

def deserializeMethodInfo : View MethodInfo := do
  let methodId ← tryReadUint32
  let name ← tryReadString
  let paramTypes ← tryReadString
  let returnType ← tryReadString
  let idlHash ← tryReadUint32
  return ⟨methodId, idlHash, name, paramTypes, returnType⟩

def deserializeInterfaceInfo : View InterfaceInfo := do
  let interfaceId ← tryReadUint32
  let name ← tryReadString
  let methodCount ← tryReadUint16
  let methods ← readTimes deserializeMethodInfo methodCount.toNat
  return ⟨interfaceId, name, methods⟩

def deserializeServiceInfo : View ServiceInfo := do
  let name ← tryReadString
  let host ← tryReadString
  let port ← tryReadUint16
  let hostId ← tryReadString
  let instanceId ← tryReadString
  let reqRingCapacity ← tryReadUint32
  let respRingCapacity ← tryReadUint32
  let ifaceCount ← tryReadUint16
  let interfaces ← readTimes deserializeInterfaceInfo ifaceCount.toNat
  return ⟨name, host, port, hostId, instanceId, reqRingCapacity.toNat, respRingCapacity.toNat,
    interfaces⟩

def deserializeRuntimeInfo : View RuntimeInfo := do
  let pid ← tryReadUint32
  let processName ← tryReadString
  let role ← tryReadString
  let logLevel ← tryReadUint32
  let diagCapabilities ← tryReadUint32
  let serviceCount ← tryReadUint16
  let services ← readTimes tryReadString serviceCount.toNat
  let sessionVersion ← tryReadUint32
  let runtimeId ← tryReadString
  let incarnationId ← tryReadUint32
  let heartbeatIntervalMs ← tryReadUint32
  let requestedTimeoutMs ← tryReadUint32
  let hostId ← tryReadString
  return ⟨pid, processName, role, logLevel, diagCapabilities, services, sessionVersion, runtimeId,
    incarnationId, heartbeatIntervalMs, requestedTimeoutMs, hostId⟩

/-- What the wire carries of a topic subscription selector. -/
structure TopicSelectorFields where
  mode : UInt8
  publisherService : Bytes
  hostId : Bytes
  instanceId : Bytes
deriving DecidableEq, Repr

/-- `TOPIC_SUB_MODE_SERVICE`. -/
def topicSubModeService : UInt8 := 1

/-- `TOPIC_SUB_MODE_INSTANCE`. -/
def topicSubModeInstance : UInt8 := 2

def readTopicSubscriptionSelector : View TopicSelectorFields := do
  let mode ← tryReadUint8
  if mode > topicSubModeInstance then View.fail
  else
    let publisherService ← if mode ≥ topicSubModeService then tryReadString else pure []
    let hostId ← if mode = topicSubModeInstance then tryReadString else pure []
    let instanceId ← if mode = topicSubModeInstance then tryReadString else pure []
    return ⟨mode, publisherService, hostId, instanceId⟩

/-! ### Writing -/

section
variable (alloc : Allocator)

/-- A write as the serializers chain them: whether it succeeded, and the buffer it leaves. -/
abbrev Write := Buffer → Bool × Buffer

/-- The writes of a list, one after another, stopping at the first that fails. -/
def writeAll (writes : List Write) (buf : Buffer) : Bool × Buffer :=
  writes.foldl Message.thenWrite (true, buf)

/-- A count of two bytes and then the elements. A list that does not fit the count is refused. -/
def writeCounted {α : Type} (write : α → Write) (elements : List α) : Write := fun buf =>
  if elements.length > 0xFFFF then (false, buf)
  else
    writeAll ((·.writeUint16 alloc (UInt16.ofNat elements.length)) :: elements.map write) buf

def serializeMethodInfo (info : MethodInfo) : Write :=
  writeAll [(·.writeUint32 alloc info.methodId), (·.writeString alloc info.name),
    (·.writeString alloc info.paramTypes), (·.writeString alloc info.returnType),
    (·.writeUint32 alloc info.idlHash)]

def serializeInterfaceInfo (info : InterfaceInfo) : Write :=
  writeAll [(·.writeUint32 alloc info.interfaceId), (·.writeString alloc info.name),
    writeCounted alloc (serializeMethodInfo alloc) info.methods]

def serializeServiceInfo (info : ServiceInfo) : Write :=
  writeAll [(·.writeString alloc info.name), (·.writeString alloc info.host),
    (·.writeUint16 alloc info.port), (·.writeString alloc info.hostId),
    (·.writeString alloc info.instanceId),
    (·.writeUint32 alloc (UInt32.ofNat info.reqRingCapacity)),
    (·.writeUint32 alloc (UInt32.ofNat info.respRingCapacity)),
    writeCounted alloc (serializeInterfaceInfo alloc) info.interfaces]

def serializeRuntimeInfo (info : RuntimeInfo) : Write :=
  writeAll [(·.writeUint32 alloc info.pid), (·.writeString alloc info.processName),
    (·.writeString alloc info.role), (·.writeUint32 alloc info.logLevel),
    (·.writeUint32 alloc info.diagCapabilities),
    writeCounted alloc (fun service => (·.writeString alloc service)) info.services,
    (·.writeUint32 alloc info.sessionVersion), (·.writeString alloc info.runtimeId),
    (·.writeUint32 alloc info.incarnationId), (·.writeUint32 alloc info.heartbeatIntervalMs),
    (·.writeUint32 alloc info.requestedTimeoutMs), (·.writeString alloc info.hostId)]

def writeTopicSubscriptionSelector (selector : TopicSelectorFields) : Write := fun buf =>
  if selector.mode > topicSubModeInstance then (false, buf)
  else
    let service : List Write :=
      if selector.mode ≥ topicSubModeService then [(·.writeString alloc selector.publisherService)]
      else []
    let inst : List Write :=
      if selector.mode = topicSubModeInstance then
        [(·.writeString alloc selector.hostId), (·.writeString alloc selector.instanceId)]
      else []
    writeAll ((·.writeUint8 alloc selector.mode) :: (service ++ inst)) buf

/-- The limits of a topic list, with the number of bytes counted so far. -/
def publishedTopicsFit : List Bytes → Nat → Bool
  | [], _ => true
  | topic :: topics, aggregateBytes =>
    if topic.isEmpty ∨ topic.length > maxTopicNameLength
        ∨ topic.length > maxPublishedTopicsBytes - aggregateBytes then false
    else publishedTopicsFit topics (aggregateBytes + topic.length)

/-- The reply is encoded on the side and copied into the buffer when it is complete. -/
def serializePublishedTopicsReply (found : Bool) (topics : List Bytes) : Write := fun buf =>
  if topics.length > maxPublishedTopics ∨ (!found ∧ !topics.isEmpty) then (false, buf)
  else if !publishedTopicsFit topics 0 then (false, buf)
  else
    let body : List Write :=
      if found then
        (·.writeUint32 alloc (UInt32.ofNat topics.length)) ::
          topics.map fun topic => (·.writeString alloc topic)
      else []
    match writeAll ((·.writeBool alloc found) :: body) Buffer.init with
    | (false, _) => (false, buf)
    | (true, encoded) => buf.writeRaw alloc encoded.bytes

end

/-! ### The templates -/

/-- What the deserializers use of `BufT`. A failed read ends the deserializer, and `refuse` is its own
    `return false`. -/
class ByteReader (m : Type → Type) extends Monad m where
  readUint8 : m UInt8
  readUint16 : m UInt16
  readUint32 : m UInt32
  readText : m Bytes
  refuse : {α : Type} → m α

namespace Template

variable {m : Type → Type} [ByteReader m]

open ByteReader

def readTimes {α : Type} (reader : m α) : Nat → m (List α)
  | 0 => pure []
  | count + 1 => do
      let value ← reader
      let values ← readTimes reader count
      return value :: values

def deserializeMethodInfo : m MethodInfo := do
  let methodId ← readUint32
  let name ← readText
  let paramTypes ← readText
  let returnType ← readText
  let idlHash ← readUint32
  return ⟨methodId, idlHash, name, paramTypes, returnType⟩

def deserializeInterfaceInfo : m InterfaceInfo := do
  let interfaceId ← readUint32
  let name ← readText
  let methodCount ← readUint16
  let methods ← readTimes deserializeMethodInfo methodCount.toNat
  return ⟨interfaceId, name, methods⟩

def deserializeServiceInfo : m ServiceInfo := do
  let name ← readText
  let host ← readText
  let port ← readUint16
  let hostId ← readText
  let instanceId ← readText
  let reqRingCapacity ← readUint32
  let respRingCapacity ← readUint32
  let ifaceCount ← readUint16
  let interfaces ← readTimes deserializeInterfaceInfo ifaceCount.toNat
  return ⟨name, host, port, hostId, instanceId, reqRingCapacity.toNat, respRingCapacity.toNat,
    interfaces⟩

def deserializeRuntimeInfo : m RuntimeInfo := do
  let pid ← readUint32
  let processName ← readText
  let role ← readText
  let logLevel ← readUint32
  let diagCapabilities ← readUint32
  let serviceCount ← readUint16
  let services ← readTimes readText serviceCount.toNat
  let sessionVersion ← readUint32
  let runtimeId ← readText
  let incarnationId ← readUint32
  let heartbeatIntervalMs ← readUint32
  let requestedTimeoutMs ← readUint32
  let hostId ← readText
  return ⟨pid, processName, role, logLevel, diagCapabilities, services, sessionVersion, runtimeId,
    incarnationId, heartbeatIntervalMs, requestedTimeoutMs, hostId⟩

def deserializeSessionHello : m SessionHello := do
  let version ← readUint32
  let runtimeId ← readText
  let incarnationId ← readUint32
  let heartbeatIntervalMs ← readUint32
  let requestedTimeoutMs ← readUint32
  let capabilities ← readUint32
  let hostId ← readText
  let processName ← readText
  let pid ← readUint32
  return ⟨version, runtimeId, incarnationId, heartbeatIntervalMs, requestedTimeoutMs, capabilities,
    hostId, processName, pid⟩

def deserializeSessionHelloAck : m SessionHelloAck := do
  let version ← readUint32
  let status ← readUint32
  let acceptedIntervalMs ← readUint32
  let effectiveTimeoutMs ← readUint32
  let peerIncarnationId ← readUint32
  return ⟨version, status, acceptedIntervalMs, effectiveTimeoutMs, peerIncarnationId⟩

/-- The fields that a mode does not carry are cleared. -/
def readTopicSubscriptionSelector : m TopicSelectorFields := do
  let mode ← readUint8
  if mode > topicSubModeInstance then refuse
  else
    let publisherService ← if mode ≥ topicSubModeService then readText else pure []
    let hostId ← if mode = topicSubModeInstance then readText else pure []
    let instanceId ← if mode = topicSubModeInstance then readText else pure []
    return ⟨mode, publisherService, hostId, instanceId⟩

end Template

/-! ### Reading at a position -/

/-- A read as `src/core/buffer_read_utils.h` has it: from the bytes, the limit and the position to the
    value, if there is one, and the position that is left behind. -/
abbrev Positional (α : Type) := Bytes → Nat → Nat → Option α × Nat

namespace Positional

def pure {α : Type} (value : α) : Positional α := fun _ _ pos => (some value, pos)

def bind {α β : Type} (first : Positional α) (next : α → Positional β) : Positional β :=
  fun data limit pos =>
    match first data limit pos with
    | (none, after) => (none, after)
    | (some value, after) => next value data limit after

instance : Monad Positional where
  pure := pure
  bind := bind

instance : ByteReader Positional where
  readUint8 := BufferRead.readUint8
  readUint16 := BufferRead.readUint16
  readUint32 := BufferRead.readUint32
  readText := BufferRead.readString
  refuse := fun _ _ pos => (none, pos)

end Positional

/-- `BufferView`: bytes of someone else with a read position of its own. -/
structure BufferView where
  data : Bytes
  readPos : Nat
  readPos_le : readPos ≤ data.length

def BufferView.unread (v : BufferView) : Bytes := v.data.drop v.readPos

/-- A record is decoded on the side and assigned in the end, so a failure leaves the output object as it
    was. The reader of selectors alone assigns as it goes. -/
def assigned {α : Type} (decoded : Option α) (output : α) : Bool × α :=
  match decoded with
  | none => (false, output)
  | some value => (true, value)

/-- A deserializer at a `Buffer`, which reads up to its write position: the result, the output object and
    the buffer that it leaves. -/
def Buffer.deserialize {α : Type} (b : Buffer) (reader : Positional α) (output : α) :
    (Bool × α) × Buffer :=
  (assigned (reader b.data b.writePos b.readPos).1 output,
    (b.trySetReadPosition (reader b.data b.writePos b.readPos).2).2)

/-- A deserializer at a `BufferView`. -/
def BufferView.deserialize {α : Type} (v : BufferView) (reader : Positional α) (output : α) :
    (Bool × α) × BufferView :=
  (assigned (reader v.data v.data.length v.readPos).1 output,
    if h : (reader v.data v.data.length v.readPos).2 ≤ v.data.length then
      ⟨v.data, (reader v.data v.data.length v.readPos).2, h⟩
    else v)

/-! ### The hello and its answer -/

/-- The reader of a view, which sees only what is behind the position. -/
def deserializeSessionHelloAck : View SessionHelloAck := do
  let version ← tryReadUint32
  let status ← tryReadUint32
  let acceptedIntervalMs ← tryReadUint32
  let effectiveTimeoutMs ← tryReadUint32
  let peerIncarnationId ← tryReadUint32
  return ⟨version, status, acceptedIntervalMs, effectiveTimeoutMs, peerIncarnationId⟩

def serializeSessionHello (alloc : Allocator) (hello : SessionHello) : Write :=
  writeAll [(·.writeUint32 alloc hello.version), (·.writeString alloc hello.runtimeId),
    (·.writeUint32 alloc hello.incarnationId), (·.writeUint32 alloc hello.heartbeatIntervalMs),
    (·.writeUint32 alloc hello.requestedTimeoutMs), (·.writeUint32 alloc hello.capabilities),
    (·.writeString alloc hello.hostId), (·.writeString alloc hello.processName),
    (·.writeUint32 alloc hello.pid)]

/-! ### The topics of a service -/

/-- The loop of `deserializePublishedTopicsReply`, with the bytes counted so far. -/
def readPublishedTopics : Nat → Nat → View (List Bytes)
  | 0, _ => pure []
  | count + 1, aggregateBytes => do
      let topic ← tryReadString
      if topic.isEmpty ∨ topic.length > maxTopicNameLength
          ∨ topic.length > maxPublishedTopicsBytes - aggregateBytes then View.fail
      else
        let topics ← readPublishedTopics count (aggregateBytes + topic.length)
        return topic :: topics

def readFoundTopics : View (List Bytes) := do
  let count ← tryReadUint32
  let available ← remaining
  if count.toNat > maxPublishedTopics ∨ count.toNat > available / 4 then View.fail
  else readPublishedTopics count.toNat 0

/-- Nothing may be left behind the topics. -/
def deserializePublishedTopicsReply : View (Bool × List Bytes) := do
  let found ← tryReadBool
  let topics ← (if found then readFoundTopics else pure [] : View (List Bytes))
  let available ← remaining
  if available ≠ 0 then View.fail else return (found, topics)

/-- The output arguments are assigned at the end only. -/
def deserializePublishedTopicsReplyInto (view : Bytes) (output : Bool × List Bytes) :
    Bool × Bool × List Bytes :=
  match deserializePublishedTopicsReply view with
  | some (decoded, _) => (true, decoded)
  | none => (false, output)

end OmniBinder
