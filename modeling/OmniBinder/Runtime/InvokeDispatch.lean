/-
Module: OmniBinder.Runtime.InvokeDispatch
Purpose: What `src/core/runtime_dispatch.cpp` does with an invocation between its arrival and its reply:
  the diagnostic hooks, the checks of `dispatchLocalInvoke`, the handler or the built-in diagnostic
  interface, and the reply.
Trusted boundary: human-reviewed spec
Main exports: Diagnostics, Host.handleServiceClientMessage
-/
import OmniBinder.Runtime.DataPlane

namespace OmniBinder

/-- The diagnostic state: `topicIds` holds the `diag_topic_id` of each entry whose `diag_enabled` is
    set, by the identity of the entry. -/
structure Diagnostics where
  activeCount : Nat
  watchActive : Bool
  watchTopicId : UInt32
  topicIds : Table Nat UInt32

/-- The runtime as a server of invocations. -/
structure Host where
  plane : DataPlane
  diag : Diagnostics

/-- What `onInvoke` returns. The response and the reply it is copied to are in memory at the same
    time, so neither takes more than a quarter of the address space. -/
structure HandlerResult where
  status : Int32
  response : Bytes
  length_le : response.length ≤ sizeMax / 4

/-- A `Service`: the interface it declares, and its handler, which runs any code it likes. -/
structure LocalService where
  interfaceInfo : InterfaceInfo
  onInvoke : UInt32 → Bytes → Host → HandlerResult × Host

/-- What an invocation meets on its way besides the handler: the clock, how the sockets take what is
    sent, the user code that diagnostic broadcasts may run into, and for the diagnostic interface the id
    of its topic (zero when unknown), before and after `publishTopicInternal` with its status. -/
structure InvokeContext where
  timeUs : UInt64
  plans : Int → List SocketSend
  callbacks : UInt8 → Host → Host
  diagTopicId : UInt32
  publishTopicInternal : Host → (Int32 × UInt32) × Host
  replyPlan : List SocketSend

inductive InvokeDispatchStatus where
  | success
  | decodeFailed
  | interfaceMismatch
  | idlMismatch
  | invokeFailed
deriving DecidableEq, Repr

structure InvokeDispatchResult where
  status : InvokeDispatchStatus
  errorCode : Int32
  response : Bytes
deriving DecidableEq, Repr

namespace InvokeDispatchResult

def failure (status : InvokeDispatchStatus) (errorCode : Int32) : InvokeDispatchResult :=
  ⟨status, errorCode, []⟩

/-- Which of the two replies is made. -/
def outcome (result : InvokeDispatchResult) : DataPlane.InvokeOutcome :=
  match result.status with
  | .success => .success result.response
  | _ => .error result.errorCode

end InvokeDispatchResult

def errUnknown : Int32 := -1
def errServiceNotFound : Int32 := -200
def errInterfaceNotFound : Int32 := -203
def errIdlMismatch : Int32 := -208
def errDeserialize : Int32 := -501

/-- `OMNI_DIAG_IFACE_ID`. -/
def omniDiagIfaceId : UInt32 := 0x4F4E4944

def diagEventRequest : UInt8 := 0
def diagEventResponse : UInt8 := 1

/-! ### The request -/

structure InvokePayload where
  interfaceId : UInt32
  idlHash : UInt32
  methodId : UInt32
  request : Bytes
deriving DecidableEq, Repr

/-- The four numbers in front of the request. -/
def readInvokeHeader : View (UInt32 × UInt32 × UInt32 × UInt32) := do
  let interfaceId ← tryReadUint32
  let idlHash ← tryReadUint32
  let methodId ← tryReadUint32
  let payloadLen ← tryReadUint32
  return (interfaceId, idlHash, methodId, payloadLen)

section
variable (alloc : Allocator)

def decodeInvokePayload (payload : Bytes) : Option InvokePayload :=
  match readInvokeHeader payload with
  | none => none
  | some ((interfaceId, idlHash, methodId, payloadLen), rest) =>
    if rest.length < payloadLen.toNat then none
    else if payloadLen = 0 then some ⟨interfaceId, idlHash, methodId, []⟩
    else
      match Buffer.init.writeRaw alloc (rest.take payloadLen.toNat) with
      | (false, _) => none
      | (true, request) => some ⟨interfaceId, idlHash, methodId, request.bytes⟩

/-- `diag_serialize_event`. -/
def diagSerializeEvent (direction : UInt8) (timeUs : UInt64) (msg : Message) : Option Buffer :=
  let header := Message.thenWrite (Message.thenWrite (Message.thenWrite (Message.thenWrite
    (Buffer.init.writeUint8 alloc direction)
    (·.writeUint64 alloc timeUs))
    (·.writeUint16 alloc msg.header.type))
    (·.writeUint32 alloc msg.getSequence))
    (·.writeUint32 alloc (UInt32.ofNat msg.payload.size))
  match Message.thenWrite header fun buf =>
      if msg.payload.size > 0 then buf.writeRaw alloc msg.payload.bytes else (true, buf) with
  | (true, buf) => some buf
  | (false, _) => none

namespace Host

/-- A broadcast and the callbacks of the clients it disconnects. -/
def broadcastEvent (context : InvokeContext) (direction : UInt8) (topicId : UInt32) (msg : Message)
    (host : Host) : Host :=
  match diagSerializeEvent alloc direction context.timeUs msg with
  | none => host
  | some event =>
    context.callbacks direction
      { host with
        plane := host.plane.broadcastInternal alloc topicId event.bytes context.plans }

def emitDiagHook (context : InvokeContext) (entryId : Nat) (direction : UInt8) (msg : Message)
    (host : Host) : Host :=
  match host.diag.topicIds[entryId]? with
  | none => host
  | some topicId =>
    if topicId ≠ 0 then host.broadcastEvent alloc context direction topicId msg else host

def emitDiagEvent (context : InvokeContext) (direction : UInt8) (msg : Message) (host : Host) :
    Host :=
  if !host.diag.watchActive then host
  else if host.diag.watchTopicId ≠ 0 then
    host.broadcastEvent alloc context direction host.diag.watchTopicId msg
  else host

/-- `isEntryAlive`. -/
def isEntryAlive (host : Host) (name : Bytes) (entryId : Nat) : Bool :=
  match host.plane.localServices[name]? with
  | none => false
  | some entry => entry.id = entryId

/-! ### The dispatch -/

/-- The response of every diagnostic request that is granted. -/
def diagGranted : InvokeDispatchResult := ⟨.success, 0, ((Buffer.init.writeUint8 alloc 0).2).bytes⟩

/-- Switch the diagnosis of an entry on. The entry is looked up again after the topic was published. -/
def enableDiag (context : InvokeContext) (name : Bytes) (host : Host) : InvokeDispatchResult × Host :=
  let (topicId, host) :=
    if context.diagTopicId = 0 then
      let ((status, topicId), host) := context.publishTopicInternal host
      (if status = 0 then topicId else 0, host)
    else (context.diagTopicId, host)
  match host.plane.localServices[name]? with
  | none => (.failure .invokeFailed errUnknown, host)
  | some entry =>
    if topicId ≠ 0 then
      (diagGranted alloc,
        { host with
          diag := { host.diag with
            activeCount := host.diag.activeCount + 1
            topicIds := host.diag.topicIds.insert entry.id topicId } })
    else (.failure .invokeFailed errUnknown, host)

/-- Switch the diagnosis of an entry off. -/
def disableDiag (entryId : Nat) (host : Host) : InvokeDispatchResult × Host :=
  let activeCount :=
    if host.diag.topicIds.contains entryId ∧ host.diag.activeCount > 0 then
      host.diag.activeCount - 1
    else host.diag.activeCount
  (diagGranted alloc,
    { host with
      diag := { host.diag with
        activeCount := activeCount
        topicIds := host.diag.topicIds.erase entryId } })

def dispatchDiagInvoke (context : InvokeContext) (name : Bytes) (request : Bytes) (host : Host) :
    InvokeDispatchResult × Host :=
  match host.plane.localServices[name]? with
  | none => (.failure .invokeFailed errServiceNotFound, host)
  | some entry =>
    let enable : Bool := match request with
      | [] => false
      | first :: _ => first != 0
    if !enable ∧ host.diag.activeCount = 0 then (diagGranted alloc, host)
    else if enable ∧ !host.diag.topicIds.contains entry.id then host.enableDiag alloc context name
    else if !enable then host.disableDiag alloc entry.id
    else (diagGranted alloc, host)

/-- The hash a method is registered with, zero for an unknown method. -/
def serverIdlHash (service : LocalService) (methodId : UInt32) : UInt32 :=
  match service.interfaceInfo.methods.find? (·.methodId = methodId) with
  | none => 0
  | some method => method.idlHash

def dispatchLocalInvoke (context : InvokeContext) (service : LocalService) (name : Bytes)
    (msg : Message) (host : Host) : InvokeDispatchResult × Host :=
  match decodeInvokePayload alloc msg.payload.bytes with
  | none => (.failure .decodeFailed errDeserialize, host)
  | some payload =>
    if payload.interfaceId = omniDiagIfaceId then
      host.dispatchDiagInvoke alloc context name payload.request
    else if service.interfaceInfo.interfaceId ≠ payload.interfaceId then
      (.failure .interfaceMismatch errInterfaceNotFound, host)
    else if payload.idlHash ≠ 0 ∧ payload.idlHash ≠ serverIdlHash service payload.methodId then
      (.failure .idlMismatch errIdlMismatch, host)
    else
      let (result, host) := service.onInvoke payload.methodId payload.request host
      if result.status ≠ 0 then (⟨.invokeFailed, result.status, result.response⟩, host)
      else (⟨.success, 0, result.response⟩, host)

/-! ### The reply -/

/-- `onInvokeRequest` up to the dispatch. -/
def beforeDispatch (context : InvokeContext) (entryId : Nat) (msg : Message) (host : Host) : Host :=
  (host.emitDiagHook alloc context entryId diagEventRequest msg).emitDiagEvent alloc context
    diagEventRequest msg

/-- The hook of the reply, after which the reply is sent. -/
def beforeReply (context : InvokeContext) (entryId : Nat) (seq : UInt32)
    (result : InvokeDispatchResult) (host : Host) : Host :=
  host.emitDiagHook alloc context entryId diagEventResponse
    (DataPlane.makeInvokeReply alloc seq result.outcome)

def onInvokeRequest (context : InvokeContext) (service : LocalService) (name : Bytes)
    (clientId : Int) (msg : Message) (host : Host) : Host :=
  match host.plane.localServices[name]? with
  | none => host
  | some entry =>
    let host := host.beforeDispatch alloc context entry.id msg
    if !host.isEntryAlive name entry.id then host
    else
      let (result, host) := host.dispatchLocalInvoke alloc context service name msg
      if !host.isEntryAlive name entry.id then host
      else
        let host := host.beforeReply alloc context entry.id msg.getSequence result
        { host with
          plane := host.plane.sendInvokeReply alloc name entry.id clientId msg.getSequence
            result.outcome context.replyPlan }

/-- A message from a client, with invocations followed to their end. -/
def handleServiceClientMessage (context : InvokeContext) (service : LocalService) (name : Bytes)
    (clientId : Int) (msg : Message) (plan : List SocketSend) (host : Host) : Host :=
  let others : Host :=
    { host with plane := host.plane.handleServiceClientMessage alloc name clientId msg plan }
  match host.plane.localServices[name]? with
  | none => others
  | some entry =>
    match entry.clients[clientId]?, entry.clientSessions[clientId]? with
    | some _, some session =>
      if session.active ∧ msg.header.type = DataPlane.msgInvoke then
        host.onInvokeRequest alloc context service name clientId msg
      else others
    | _, _ => others

end Host

end

end OmniBinder
