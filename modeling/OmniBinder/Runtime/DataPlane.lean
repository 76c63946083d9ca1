/-
Module: OmniBinder.Runtime.DataPlane
Purpose: The data plane of one runtime as far as it writes to TCP connections: the direct connections of
  `src/core/connection_manager.cpp`, and the server side of `src/core/runtime_dispatch.cpp` and
  `src/core/runtime_topic.cpp` with its sessions, invoke replies, heartbeat acknowledgements and
  broadcasts.
Trusted boundary: human-reviewed spec
Main exports: SocketSend, DataPlane.run
-/
import OmniBinder.Core.ServiceCodec
import OmniBinder.Lib.Streams
import OmniBinder.Lib.Table

namespace OmniBinder

/-! ### Sending on a socket -/

/-- One turn of the loop of `socketSendAll`, as the socket decides it: some bytes written, nothing
    written but the socket writable again before the deadline, the deadline reached, or an error. -/
inductive SocketSend where
  | wrote (n : Nat)
  | retry
  | expired
  | failed
deriving DecidableEq, Repr

/-- The number of bytes written and whether that is all of them. A write of nothing is handled as a
    socket that would block; without a time budget neither is waited for. -/
def socketSendAll (length timeoutMs : Nat) (plan : List SocketSend) (sent : Nat) : Nat × Bool :=
  if sent < length then
    match plan with
    | [] => (sent, false)
    | .wrote 0 :: plan | .retry :: plan =>
      if timeoutMs = 0 then (sent, false) else socketSendAll length timeoutMs plan sent
    | .wrote (n + 1) :: plan =>
      socketSendAll length timeoutMs plan (sent + min (n + 1) (length - sent))
    | .expired :: _ => (sent, false)
    | .failed :: _ => (sent, false)
  else (sent, true)

/-! ### The state -/

/-- `ClientSessionState`, without its timer. -/
structure ClientSession where
  active : Bool
  runtimeId : Bytes
  hostId : Bytes
  sessionKey : Bytes
  incarnationId : UInt32
  intervalMs : UInt32
  timeoutMs : UInt32
deriving DecidableEq, Repr

/-- A session that has not said hello yet. -/
def ClientSession.negotiating : ClientSession :=
  ⟨false, [], [], [], 0, defaultHeartbeatInterval, defaultHeartbeatTimeout⟩

/-- `LocalServiceEntry`. The identity stands for the entry's address, by which a function that was
    interrupted by user code recognises that the entry is still the same. -/
structure ServiceEntry where
  id : Nat
  clients : Table Int Nat
  clientSessions : Table Int ClientSession
  runtimeSessions : Table Bytes Int

/-- A function interrupted by user code, and what it needs to go on. -/
inductive PendingCall where
  | disconnectBroken (broken : List (Bytes × Int))
  | invokeReply (name : Bytes) (entryId : Nat) (clientId : Int) (sequence : UInt32)
  | sessionHello (name : Bytes) (clientId : Int) (hello : SessionHello) (sequence : UInt32)
  | subscribeBroadcast (name : Bytes) (entryId : Nat) (clientId : Int) (topicId : UInt32)
deriving DecidableEq, Repr

/-- `TopicState` as far as broadcasts read it: who publishes the topic, and its TCP subscribers. -/
structure TopicState where
  ownerService : Option Bytes
  tcpSubscribers : List Int
deriving DecidableEq, Repr

/-- Where a direct connection leads. -/
structure Endpoint where
  host : Bytes
  port : UInt16
  hostId : Bytes
  instanceId : Bytes
deriving DecidableEq, Repr

structure ServiceConnection where
  endpoint : Endpoint
  conn : Nat
deriving DecidableEq, Repr

/-- The runtime. TCP connections are numbered in the order in which they are made, and `written` keeps
    what was ever sent on each. A direct connection is in `connections` as long as it counts as
    connected: `failConnection` clears that mark before anything else. -/
structure DataPlane where
  localServices : Table Bytes ServiceEntry
  clientIdToService : Table Int Bytes
  topics : Table UInt32 TopicState
  connections : Table Bytes ServiceConnection
  pendingCalls : List PendingCall
  nextConnection : Nat
  nextEntry : Nat
  written : Table Nat (List (SendRecord UInt8))
  incarnationId : UInt32
  dataMaxSessionTimeoutMs : UInt32
  replySendTimeoutMs : Nat

/-- `DEFAULT_REPLY_SEND_TIMEOUT`. -/
def defaultReplySendTimeout : Nat := 1000

namespace DataPlane

def init (incarnationId dataMaxSessionTimeoutMs : UInt32) : DataPlane :=
  ⟨∅, ∅, ∅, ∅, [], 0, 0, ∅, incarnationId, dataMaxSessionTimeoutMs, defaultReplySendTimeout⟩

/-- Everything sent on a connection so far. -/
def sends (st : DataPlane) (conn : Nat) : List (SendRecord UInt8) := st.written[conn]?.getD []

/-- The connection of a client of a local service. -/
def clientConnection (st : DataPlane) (name : Bytes) (clientId : Int) : Option Nat :=
  st.localServices[name]?.bind fun entry => entry.clients[clientId]?

/-- `TcpConnection::sendAll`. -/
def sendAll (st : DataPlane) (conn : Nat) (frame : Bytes) (timeoutMs : Nat)
    (plan : List SocketSend) : Bool × DataPlane :=
  let (sent, complete) := socketSendAll frame.length timeoutMs plan 0
  (complete, { st with written := st.written.insert conn (st.sends conn ++ [⟨frame, sent⟩]) })

section
variable (alloc : Allocator)

/-- `sendOnFd` and `sendOnFdBestEffort`, which differ in their time budget. -/
def sendWithBudget (st : DataPlane) (conn : Nat) (msg : Message) (timeoutMs : Nat)
    (plan : List SocketSend) : Bool × DataPlane :=
  match msg.serializeInPlace alloc with
  | (false, _) => (false, st)
  | (true, msg) => st.sendAll conn msg.payload.bytes timeoutMs plan

def sendOnFd (st : DataPlane) (conn : Nat) (msg : Message) (plan : List SocketSend) :
    Bool × DataPlane :=
  st.sendWithBudget alloc conn msg st.replySendTimeoutMs plan

def sendOnFdBestEffort (st : DataPlane) (conn : Nat) (msg : Message) (plan : List SocketSend) :
    Bool × DataPlane :=
  st.sendWithBudget alloc conn msg 0 plan

end

/-! ### Clients of local services -/

/-- The rest of a call is put off until the user code it runs into has returned. -/
def suspend (st : DataPlane) (call : PendingCall) : DataPlane :=
  { st with pendingCalls := call :: st.pendingCalls }

def registerService (st : DataPlane) (name : Bytes) : DataPlane :=
  if st.localServices.contains name then st
  else
    { st with
      localServices := st.localServices.insert name ⟨st.nextEntry, ∅, ∅, ∅⟩
      nextEntry := st.nextEntry + 1 }

/-- The subscriber lists after a change to each. A topic that is left unused is erased in the source;
    here it stays, unpublished and with no subscriber. -/
def updateTopics (st : DataPlane) (update : UInt32 → TopicState → TopicState) : DataPlane :=
  { st with topics := st.topics.map update }

/-- Forget a client in every topic. -/
def removeTcpSubscriberFd (st : DataPlane) (clientId : Int) : DataPlane :=
  st.updateTopics fun _ topic =>
    { topic with tcpSubscribers := topic.tcpSubscribers.filter (· ≠ clientId) }

/-- The topics of a service that goes away lose their publisher and their subscribers. -/
def forgetPublishedTopicsByOwner (st : DataPlane) (name : Bytes) : DataPlane :=
  st.updateTopics fun _ topic => if topic.ownerService = some name then ⟨none, []⟩ else topic

/-- `detachClientsFromEntry`, for the clients of an entry that is no longer in the table. -/
def detachClientsFromEntry (st : DataPlane) (entry : ServiceEntry) : DataPlane :=
  entry.clients.toList.foldl
    (fun st client =>
      { st with clientIdToService := st.clientIdToService.erase client.1 }.removeTcpSubscriberFd
        client.1)
    st

/-- `unregisterServiceInternal` up to the user's `onStop`, after which only memory is released. -/
def unregisterService (st : DataPlane) (name : Bytes) : DataPlane :=
  match st.localServices[name]? with
  | none => st
  | some entry =>
    ({ st with localServices := st.localServices.erase name }.detachClientsFromEntry
      entry).forgetPublishedTopicsByOwner name

def onServiceClientAccepted (st : DataPlane) (name : Bytes) (clientId : Int) : DataPlane :=
  match st.localServices[name]? with
  | none => st
  | some entry =>
    { st with
      localServices := st.localServices.insert name
        { entry with
          clients := entry.clients.insert clientId st.nextConnection
          clientSessions := entry.clientSessions.insert clientId ClientSession.negotiating }
      clientIdToService := st.clientIdToService.insert clientId name
      nextConnection := st.nextConnection + 1 }

/-- The session table of an entry after a client has gone. -/
def forgetRuntimeSession (entry : ServiceEntry) (clientId : Int) : Table Bytes Int :=
  match entry.clientSessions[clientId]? with
  | none => entry.runtimeSessions
  | some session =>
    if session.sessionKey.isEmpty then entry.runtimeSessions
    else if entry.runtimeSessions[session.sessionKey]? = some clientId then
      entry.runtimeSessions.erase session.sessionKey
    else entry.runtimeSessions

/-- Everything up to the user's `onClientDisconnected`, after which only the socket is released: the
    client is in no table any more when user code runs. -/
def onServiceClientDisconnected (st : DataPlane) (name : Bytes) (clientId : Int) : DataPlane :=
  match st.localServices[name]? with
  | none => { st with clientIdToService := st.clientIdToService.erase clientId }
  | some entry =>
    match entry.clients[clientId]? with
    | none => { st with clientIdToService := st.clientIdToService.erase clientId }
    | some _ =>
      { st with
        localServices := st.localServices.insert name
          { entry with
            clients := entry.clients.erase clientId
            clientSessions := entry.clientSessions.erase clientId
            runtimeSessions := forgetRuntimeSession entry clientId }
        clientIdToService := st.clientIdToService.erase clientId }
        |>.removeTcpSubscriberFd clientId

def closeClientSession (st : DataPlane) (name : Bytes) (clientId : Int) : DataPlane :=
  st.onServiceClientDisconnected name clientId

/-! ### Messages from clients -/

section
variable (alloc : Allocator)

def msgInvoke : UInt16 := 0x100
def msgInvokeReply : UInt16 := 0x101
def msgBroadcast : UInt16 := 0x110
def msgSubscribeBroadcast : UInt16 := 0x111
def msgSessionHello : UInt16 := 0x112
def msgSessionHelloAck : UInt16 := 0x113
def msgHeartbeat : UInt16 := 0x5
def msgHeartbeatAck : UInt16 := 0x6

/-- A message whose payload is what a chain of writes leaves, whether or not they all succeed. -/
def messageWith (type : UInt16) (seq : UInt32) (write : Buffer → Bool × Buffer) : Message :=
  { Message.ofType type seq with payload := (write Buffer.init).2 }

/-- The heartbeat interval a hello is granted. -/
def negotiatedInterval (hello : SessionHello) : UInt32 :=
  clampHeartbeatInterval hello.heartbeatIntervalMs

/-- The session timeout a hello is granted. A hello that asks for none asks for the default. -/
def negotiatedTimeout (st : DataPlane) (hello : SessionHello) : UInt32 :=
  let requested :=
    if hello.requestedTimeoutMs = 0 then defaultHeartbeatTimeout else hello.requestedTimeoutMs
  negotiateSessionTimeout (negotiatedInterval hello) requested st.dataMaxSessionTimeoutMs

def helloRuntimeId (hello : SessionHello) : Bytes :=
  effectiveRuntimeId hello.runtimeId hello.processName hello.pid

def helloSessionKey (hello : SessionHello) : Bytes :=
  makeRuntimeSessionKey hello.hostId (helloRuntimeId hello)

def helloAck (st : DataPlane) (hello : SessionHello) : SessionHelloAck :=
  let interval := negotiatedInterval hello
  let timeout := st.negotiatedTimeout hello
  let unchanged := interval = hello.heartbeatIntervalMs ∧
    (hello.requestedTimeoutMs = 0 ∨ timeout = hello.requestedTimeoutMs)
  ⟨sessionProtocolVersion, if unchanged then sessionStatusOk else sessionStatusClamped, interval,
    timeout, st.incarnationId⟩

/-- The entry with another session for one of its clients. -/
def setSession (st : DataPlane) (name : Bytes) (entry : ServiceEntry) (clientId : Int)
    (session : ClientSession) (runtimeSessions : Table Bytes Int) : DataPlane :=
  { st with
    localServices := st.localServices.insert name
      { entry with
        clientSessions := entry.clientSessions.insert clientId session
        runtimeSessions := runtimeSessions } }

/-- The last part of the handling of a hello: acknowledge it, or close the session. -/
def sendHelloAck (st : DataPlane) (name : Bytes) (clientId : Int) (hello : SessionHello)
    (seq : UInt32) (plan : List SocketSend) : DataPlane :=
  match st.clientConnection name clientId with
  | none => st
  | some conn =>
    let written := serializeSessionHelloAck alloc (st.helloAck hello) Buffer.init
    if written.1 then
      match st.sendOnFd alloc conn
          { Message.ofType msgSessionHelloAck seq with payload := written.2 } plan with
      | (true, st) => st
      | (false, st) => st.closeClientSession name clientId
    else st.closeClientSession name clientId

/-- The session becomes active under its key, then the hello is acknowledged. -/
def activateSession (st : DataPlane) (name : Bytes) (clientId : Int) (hello : SessionHello)
    (seq : UInt32) (plan : List SocketSend) : DataPlane :=
  match st.localServices[name]? with
  | none => st
  | some entry =>
    match entry.clientSessions[clientId]? with
    | none => st
    | some _ =>
      let key := helloSessionKey hello
      let session : ClientSession :=
        ⟨true, helloRuntimeId hello, hello.hostId, key, hello.incarnationId,
          negotiatedInterval hello, st.negotiatedTimeout hello⟩
      (st.setSession name entry clientId session
        (entry.runtimeSessions.insert key clientId)).sendHelloAck alloc name clientId hello seq plan

/-- The client of an older incarnation that holds the session key of a hello. -/
def supersededClient (entry : ServiceEntry) (clientId : Int) (hello : SessionHello) : Option Int :=
  match entry.runtimeSessions[helloSessionKey hello]? with
  | none => none
  | some old =>
    if old = clientId then none
    else
      match entry.clientSessions[old]? with
      | none => some old
      | some session => if session.incarnationId ≠ hello.incarnationId then some old else none

/-- `MSG_SESSION_HELLO`. When an older session is closed first its `onClientDisconnected` runs, so the
    rest is left to a pending call. -/
def onSessionHello (st : DataPlane) (name : Bytes) (clientId : Int) (entry : ServiceEntry)
    (session : ClientSession) (msg : Message) (plan : List SocketSend) : DataPlane :=
  match deserializeSessionHello.run msg.payload.bytes with
  | none => st.closeClientSession name clientId
  | some hello =>
    if hello.version ≠ sessionProtocolVersion ∨ hello.incarnationId = 0 then
      st.closeClientSession name clientId
    else if session.active then
      if session.runtimeId ≠ helloRuntimeId hello ∨
          session.incarnationId ≠ hello.incarnationId then
        st.closeClientSession name clientId
      else
        (st.setSession name entry clientId
          { session with
            intervalMs := negotiatedInterval hello
            timeoutMs := st.negotiatedTimeout hello }
          entry.runtimeSessions).sendHelloAck alloc name clientId hello msg.getSequence plan
    else
      match supersededClient entry clientId hello with
      | some old =>
        (st.closeClientSession name old).suspend
          (.sessionHello name clientId hello msg.getSequence)
      | none => st.activateSession alloc name clientId hello msg.getSequence plan

def heartbeatAck (st : DataPlane) (seq : UInt32) : Message :=
  messageWith msgHeartbeatAck seq (·.writeUint32 alloc st.incarnationId)

/-- `MSG_HEARTBEAT`. An acknowledgement that cannot be sent is dropped and the session goes on. -/
def onHeartbeat (st : DataPlane) (name : Bytes) (clientId : Int) (conn : Nat)
    (session : ClientSession) (msg : Message) (plan : List SocketSend) : DataPlane :=
  if !session.active then st.closeClientSession name clientId
  else
    match tryReadUint32.run msg.payload.bytes with
    | none => st.closeClientSession name clientId
    | some incarnation =>
      if incarnation ≠ session.incarnationId then st.closeClientSession name clientId
      else
        (st.sendOnFdBestEffort alloc conn (st.heartbeatAck alloc msg.getSequence) plan).2

/-- `decodeSubscribeBroadcastPayload`, of which only the topic id is used. -/
def decodeSubscribeBroadcastPayload : View UInt32 := do
  let topicId ← tryReadUint32
  let _ ← tryReadString
  return topicId

def handleServiceClientMessage (st : DataPlane) (name : Bytes) (clientId : Int) (msg : Message)
    (plan : List SocketSend) : DataPlane :=
  match st.localServices[name]? with
  | none => st
  | some entry =>
    match entry.clients[clientId]? with
    | none => st
    | some conn =>
      match entry.clientSessions[clientId]? with
      | none => st.closeClientSession name clientId
      | some session =>
        if !session.active ∧ msg.header.type ≠ msgSessionHello then
          st.closeClientSession name clientId
        else if msg.header.type = msgSessionHello then
          st.onSessionHello alloc name clientId entry session msg plan
        else if msg.header.type = msgHeartbeat then
          st.onHeartbeat alloc name clientId conn session msg plan
        else if msg.header.type = msgInvoke then
          st.suspend (.invokeReply name entry.id clientId msg.getSequence)
        else if msg.header.type = msgSubscribeBroadcast then
          match decodeSubscribeBroadcastPayload.run msg.payload.bytes with
          | none => st
          | some topicId =>
            st.suspend (.subscribeBroadcast name entry.id clientId topicId)
        else st

/-! ### Broadcasts -/

def rememberPublishedTopic (st : DataPlane) (topicId : UInt32) (owner : Bytes) : DataPlane :=
  let subscribers := (st.topics[topicId]?.map TopicState.tcpSubscribers).getD []
  { st with topics := st.topics.insert topicId ⟨some owner, subscribers⟩ }

def addTcpSubscriber (st : DataPlane) (topicId : UInt32) (clientId : Int) : DataPlane :=
  let topic := st.topics[topicId]?.getD ⟨none, []⟩
  if clientId ∈ topic.tcpSubscribers then { st with topics := st.topics.insert topicId topic }
  else
    { st with
      topics := st.topics.insert topicId
        { topic with tcpSubscribers := topic.tcpSubscribers ++ [clientId] } }

def removeTcpSubscriber (st : DataPlane) (topicId : UInt32) (clientId : Int) : DataPlane :=
  st.updateTopics fun id topic =>
    if id = topicId then
      { topic with tcpSubscribers := topic.tcpSubscribers.filter (· ≠ clientId) }
    else topic

def broadcastMessage (topicId : UInt32) (data : Bytes) : Message :=
  messageWith msgBroadcast 0 fun buf =>
    let topic := (buf.writeUint32 alloc topicId).2
    let size := (topic.writeUint32 alloc (UInt32.ofNat data.length)).2
    if data.length > 0 then size.writeRaw alloc data else (true, size)

/-- One subscriber of a broadcast: a stale one is dropped from the list, and one whose socket does not
    take the whole frame at once is added to those to be disconnected. -/
def broadcastToClient (frame : Bytes) (topicId : UInt32) (plans : Int → List SocketSend)
    (progress : DataPlane × List (Bytes × Int)) (clientId : Int) : DataPlane × List (Bytes × Int) :=
  let (st, broken) := progress
  match st.clientIdToService[clientId]? with
  | none => (st.removeTcpSubscriber topicId clientId, broken)
  | some name =>
    match st.clientConnection name clientId with
    | none => (st.removeTcpSubscriber topicId clientId, broken)
    | some conn =>
      match st.sendAll conn frame 0 (plans clientId) with
      | (true, st) => (st, broken)
      | (false, st) => (st, broken ++ [(name, clientId)])

/-- The clients a broadcast could not reach are disconnected one after the other, with user code in
    between. -/
def disconnectBroken (st : DataPlane) : List (Bytes × Int) → DataPlane
  | [] => st
  | (name, clientId) :: rest =>
    (st.onServiceClientDisconnected name clientId).suspend (.disconnectBroken rest)

/-- The TCP subscribers of a topic, in the order in which they subscribed. -/
def tcpSubscribers (st : DataPlane) (topicId : UInt32) : List Int :=
  (st.topics[topicId]?.map TopicState.tcpSubscribers).getD []

/-- The diagnostic hooks are broadcasts of their own, made before this one. -/
def broadcastInternal (st : DataPlane) (topicId : UInt32) (data : Bytes)
    (plans : Int → List SocketSend) : DataPlane :=
  match (broadcastMessage alloc topicId data).serialize alloc Buffer.init with
  | (false, _) => st
  | (true, sendBuf) =>
    let (st, broken) := (st.tcpSubscribers topicId).reverse.foldl
      (broadcastToClient sendBuf.bytes topicId plans) (st, [])
    st.disconnectBroken broken

/-! ### Resuming a call that user code interrupted -/

/-- What the dispatch of an invocation yields. -/
inductive InvokeOutcome where
  | success (response : Bytes)
  | error (code : Int32)
deriving DecidableEq, Repr

/-- `makeInvokeSuccessReply` and `makeInvokeErrorReply`: a write that fails skips the rest. -/
def makeInvokeReply (seq : UInt32) : InvokeOutcome → Message
  | .success response => messageWith msgInvokeReply seq fun buf =>
    Message.thenWrite (Message.thenWrite (buf.writeInt32 alloc 0)
      (·.writeUint32 alloc (UInt32.ofNat response.length)))
      fun buf => if response.length > 0 then buf.writeRaw alloc response else (true, buf)
  | .error code => messageWith msgInvokeReply seq fun buf =>
    Message.thenWrite (buf.writeInt32 alloc code) (·.writeUint32 alloc 0)

/-- The connection of a client, provided the service is still the one that was running. -/
def liveClient (st : DataPlane) (name : Bytes) (entryId : Nat) (clientId : Int) : Option Nat :=
  match st.localServices[name]? with
  | none => none
  | some entry => if entry.id = entryId then entry.clients[clientId]? else none

/-- The end of `onInvokeRequest`: a reply that cannot be sent whole is logged and nothing else. -/
def sendInvokeReply (st : DataPlane) (name : Bytes) (entryId : Nat) (clientId : Int) (seq : UInt32)
    (outcome : InvokeOutcome) (plan : List SocketSend) : DataPlane :=
  match st.liveClient name entryId clientId with
  | none => st
  | some conn => (st.sendOnFd alloc conn (makeInvokeReply alloc seq outcome) plan).2

/-- The end of the innermost interrupted call. -/
def resume (st : DataPlane) (outcome : InvokeOutcome) (plan : List SocketSend) : DataPlane :=
  match st.pendingCalls with
  | [] => st
  | call :: calls =>
    let st := { st with pendingCalls := calls }
    match call with
    | .disconnectBroken broken => st.disconnectBroken broken
    | .invokeReply name entryId clientId seq =>
      st.sendInvokeReply alloc name entryId clientId seq outcome plan
    | .sessionHello name clientId hello seq =>
      st.activateSession alloc name clientId hello seq plan
    | .subscribeBroadcast name entryId clientId topicId =>
      match st.liveClient name entryId clientId with
      | none => st
      | some _ => st.addTcpSubscriber topicId clientId

/-! ### Direct connections to services -/

/-- A new connection under a key, if it can be opened. -/
def openConnection (st : DataPlane) (key : Bytes) (endpoint : Endpoint) (opened : Bool) : DataPlane :=
  if opened then
    { st with
      connections := st.connections.insert key ⟨endpoint, st.nextConnection⟩
      nextConnection := st.nextConnection + 1 }
  else st

/-- `getOrCreateConnectionByKey`: a connection to the same endpoint is kept, one to another endpoint is
    given up for a new one. -/
def getOrCreateConnectionByKey (st : DataPlane) (key : Bytes) (endpoint : Endpoint)
    (opened : Bool) : DataPlane :=
  match st.connections[key]? with
  | some existing =>
    if existing.endpoint = endpoint then st
    else { st with connections := st.connections.erase key }.openConnection key endpoint opened
  | none => st.openConnection key endpoint opened

/-- `ConnectionManager::removeConnection`. -/
def removeConnection (st : DataPlane) (key : Bytes) : DataPlane :=
  { st with connections := st.connections.erase key }

/-- `sendMessage` and `sendMessageWithinTimeout`. A frame that was not sent whole fails the connection. -/
def sendMessageWithinTimeout (st : DataPlane) (key : Bytes) (msg : Message) (timeoutMs : Nat)
    (plan : List SocketSend) : DataPlane :=
  match st.connections[key]? with
  | none => st
  | some connection =>
    match msg.serializeInPlace alloc with
    | (false, _) => st
    | (true, msg) =>
      match st.sendAll connection.conn msg.payload.bytes timeoutMs plan with
      | (true, st) => st
      | (false, st) => { st with connections := st.connections.erase key }

/-! ### Runs -/

end

end DataPlane

/-- Everything that can happen to the runtime: the event loop, calls of the API, and the return of user
    code to the call it interrupted. -/
inductive DataPlaneEvent where
  | registerService (name : Bytes)
  | unregisterService (name : Bytes)
  | publishTopic (topicId : UInt32) (owner : Bytes)
  | setReplySendTimeout (ms : Nat)
  | clientAccepted (name : Bytes) (clientId : Int)
  | clientMessage (name : Bytes) (clientId : Int) (msg : Message) (plan : List SocketSend)
  | clientDisconnected (name : Bytes) (clientId : Int)
  | broadcast (topicId : UInt32) (data : Bytes) (plans : Int → List SocketSend)
  | resume (outcome : DataPlane.InvokeOutcome) (plan : List SocketSend)
  | connect (key : Bytes) (endpoint : Endpoint) (opened : Bool)
  | removeConnection (key : Bytes)
  | sendMessage (key : Bytes) (msg : Message) (timeoutMs : Nat) (plan : List SocketSend)

namespace DataPlane

def step (alloc : Allocator) (st : DataPlane) : DataPlaneEvent → DataPlane
  | .registerService name => st.registerService name
  | .unregisterService name => st.unregisterService name
  | .publishTopic topicId owner => st.rememberPublishedTopic topicId owner
  | .setReplySendTimeout ms => { st with replySendTimeoutMs := ms }
  | .clientAccepted name clientId => st.onServiceClientAccepted name clientId
  | .clientMessage name clientId msg plan =>
    st.handleServiceClientMessage alloc name clientId msg plan
  | .clientDisconnected name clientId => st.onServiceClientDisconnected name clientId
  | .broadcast topicId data plans => st.broadcastInternal alloc topicId data plans
  | .resume outcome plan => st.resume alloc outcome plan
  | .connect key endpoint opened => st.getOrCreateConnectionByKey key endpoint opened
  | .removeConnection key => st.removeConnection key
  | .sendMessage key msg timeoutMs plan =>
    st.sendMessageWithinTimeout alloc key msg timeoutMs plan

/-- A run of the runtime. -/
def run (alloc : Allocator) (st : DataPlane) (events : List DataPlaneEvent) : DataPlane :=
  events.foldl (step alloc) st

end DataPlane

end OmniBinder
