/-
Module: OmniBinder.ServiceManager.Handlers
Purpose: The message handlers of `service_manager/sm_registry.cpp`, `sm_diag.cpp` and `sm_topic.cpp`,
  the dispatch of `service_manager_app.cpp`, the events of its loop, and the queue of a connection seen
  from outside.
Trusted boundary: human-reviewed spec
Main exports: App.handleRegister, App.run, App.written
-/
import OmniBinder.ServiceManager.App

namespace OmniBinder.ServiceManager

/-- `SESSION_STATUS_REJECTED`. -/
def sessionStatusRejected : UInt32 := 2

/-- `DIAG_SERVICE_NAME_PREFIX`. -/
def diagServiceNameStart : Bytes := ascii "__diag_pid_"

/-- `RUNTIME_DIAG_CAP_WATCH`. -/
def runtimeDiagCapWatch : UInt32 := 1

/-! ### Requests -/

def tryReadStringArg (msg : ReceivedMessage) : Option Bytes := tryReadString.run msg.payload

def tryReadExactStringArg (msg : ReceivedMessage) (maxLength : Nat) : Option Bytes :=
  View.run (do
    let value ← tryReadString
    let left ← remaining
    if value.isEmpty ∨ value.length > maxLength ∨ left ≠ 0 then View.fail else return value)
    msg.payload

def tryReadExactTopicArg (msg : ReceivedMessage) : Option Bytes :=
  tryReadExactStringArg msg maxTopicNameLength

/-- The filters of a watch request, each checked against those before it. -/
def readWatchFilters : Nat → List ServiceWatchFilter → View (List ServiceWatchFilter)
  | 0, filters => return filters
  | count + 1, filters => do
      let name ← tryReadString
      let hostId ← tryReadString
      let instanceId ← tryReadString
      let filter : ServiceWatchFilter := ⟨name, hostId, instanceId⟩
      if name.isEmpty ∨ name.length > maxServiceNameLength ∨ hostId.length > maxServiceNameLength
          ∨ instanceId.length > maxServiceNameLength then View.fail
      else if filters.any fun earlier => earlier.overlaps filter then View.fail
      else readWatchFilters count (filters ++ [filter])

def readServiceWatchRequest : View (UInt64 × List ServiceWatchFilter) := do
  let watchId ← tryReadUint64
  let count ← tryReadUint32
  if watchId = 0 ∨ count = 0 ∨ count > 64 then View.fail
  else
    let filters ← readWatchFilters count.toNat []
    return (watchId, filters)

/-- The mode as the wire has it, after it has been checked. -/
def topicSubscribeMode (mode : UInt8) : TopicSubscribeMode :=
  if mode = topicSubModeInstance then .serviceInstance
  else if mode = topicSubModeService then .service
  else .topicOnly

def parseSubscribeTopicRequest (msg : ReceivedMessage) :
    Option (Bytes × TopicSubscriptionFilter) :=
  View.run (do
    let topic ← tryReadString
    let left ← remaining
    if topic.isEmpty ∨ topic.length > maxTopicNameLength then View.fail
    else if left = 0 then return (topic, TopicSubscriptionFilter.init)
    else
      let fields ← readTopicSubscriptionSelector
      let left ← remaining
      if left ≠ 0 then View.fail
      else if fields.mode ≥ topicSubModeService ∧ (fields.publisherService.isEmpty
          ∨ fields.publisherService.length > maxServiceNameLength) then View.fail
      else if fields.mode = topicSubModeInstance ∧ (fields.hostId.length > maxServiceNameLength
          ∨ fields.instanceId.length > maxServiceNameLength) then View.fail
      else return (topic, ⟨topicSubscribeMode fields.mode, fields.publisherService, fields.hostId,
        fields.instanceId⟩))
    msg.payload

def parsePublishTopicRequest (msg : ReceivedMessage) : Option (Bytes × ServiceInfo × UInt32) :=
  View.run (do
    let topic ← tryReadString
    if topic.isEmpty ∨ topic.length > maxTopicNameLength then View.fail
    else
      let info ← deserializeServiceInfo
      let left ← remaining
      let idlHash ← if left ≠ 0 then tryReadUint32 else pure 0
      let left ← remaining
      if left ≠ 0 ∨ info.name.isEmpty ∨ info.name.length > maxServiceNameLength then View.fail
      else return (topic, info, idlHash))
    msg.payload

/-- The runtime that a hello announces, unless it is to be rejected. -/
def acceptedHello (msg : ReceivedMessage) : Option (RuntimeInfo × Bytes) :=
  match deserializeRuntimeInfo.run msg.payload with
  | none => none
  | some info =>
    let runtimeId := effectiveRuntimeId info.runtimeId info.processName info.pid
    if info.pid = 0 ∨ info.sessionVersion ≠ sessionProtocolVersion then none
    else if runtimeId.length > maxServiceNameLength ∨ info.hostId.length > maxServiceNameLength then
      none
    else some (info, runtimeId)

namespace App

/-! ### Services -/

def sendBoolReply (fd : Int) (type : UInt16) (sequence : UInt32) (ok : Bool) (s : App) : App :=
  s.sendMessage closeFailed fd sequence (.boolReply type ok)

/-- The last part of `handleRegister`: what the connection that lost the instance still publishes for
    the service goes, and the connection too when it owns nothing any more. -/
def releaseDisplaced (name : Bytes) (displacedFd newFd : Int) (s : App) : App :=
  if displacedFd ≥ 0 ∧ displacedFd ≠ newFd ∧ s.clients.contains displacedFd then
    let s :=
      { s with topicManager := s.topicManager.removePublishersByService name displacedFd }
    if (s.registry.listServiceNamesByFd displacedFd).isEmpty then s.closeClient displacedFd true
    else s
  else s

/-- Tell the watchers of a registration: an instance that was there before goes offline first. -/
def announceRegistration (old : Option ServiceEntry) (info : ServiceInfo) (fd : Int) (s : App) : App :=
  match old with
  | none => s.notifyServiceWatch closeFailed info.identity true
  | some old =>
    if old.controlFd ≠ fd ∨ old.info.port ≠ info.port ∨ old.info.hostId ≠ info.hostId then
      (s.notifyServiceWatch closeFailed old.info.identity false).notifyServiceWatch closeFailed
        info.identity true
    else s

def handleRegister (fd : Int) (conn : ClientConnection) (msg : ReceivedMessage) (s : App) : App :=
  if !conn.helloReceived then
    s.sendMessage closeFailed fd msg.sequence (.registerReply invalidHandle)
  else
    match deserializeServiceInfo.run msg.payload with
    | none => s.sendMessage closeFailed fd msg.sequence (.registerReply invalidHandle)
    | some info =>
      let old := s.registry.findServiceByIdentity info.identity
      let (handle, displacedFd, registry) := s.registry.addService info fd
      if handle = invalidHandle then
        s.sendMessage closeFailed fd msg.sequence (.registerReply invalidHandle)
      else
        let s := { s with registry }.record (.serviceRegistered info.name info.instanceId)
        let s := s.sendMessage closeFailed fd msg.sequence (.registerReply handle)
        let s := s.announceRegistration old info fd
        s.releaseDisplaced info.name displacedFd fd

def removeServiceAndNotify (identity : ServiceIdentity) (fd : Int) (s : App) : Bool × App :=
  match s.registry.removeServiceByIdentity identity with
  | (false, _) => (false, s)
  | (true, registry) =>
    let s := { s with registry }.notifyServiceRemoved closeFailed identity
    (true,
      if fd ≥ 0 then
        { s with topicManager := s.topicManager.removePublishersByService identity.name fd }
      else s)

/-- The reply is not sent when the connection was closed on the way. -/
def handleUnregister (fd : Int) (msg : ReceivedMessage) (s : App) : App :=
  match tryReadStringArg msg with
  | none => s.sendBoolReply fd MessageType.unregisterReply msg.sequence false
  | some name =>
    match s.registry.findServiceByFdAndName fd name with
    | none => s.sendBoolReply fd MessageType.unregisterReply msg.sequence false
    | some entry =>
      let (success, s) := s.removeServiceAndNotify entry.info.identity fd
      s.sendBoolReply fd MessageType.unregisterReply msg.sequence success

/-- Start the deadline of a session anew. -/
def armSessionDeadline (fd : Int) (s : App) : App :=
  match s.clients[fd]? with
  | none => s
  | some conn =>
    if !conn.helloReceived then s
    else
      s.setClient fd
        { conn with
          sessionGeneration := conn.sessionGeneration + 1
          deadlineTimer := some (conn.sessionGeneration + 1) }

def handleControlHeartbeat (fd : Int) (conn : ClientConnection) (msg : ReceivedMessage) (s : App) :
    App :=
  if !conn.helloReceived then s.closeClient fd true
  else
    match tryReadUint32.run msg.payload with
    | none => s.closeClient fd true
    | some incarnation =>
      if incarnation ≠ conn.incarnationId then s.closeClient fd true
      else
        (s.armSessionDeadline fd).sendMessage closeFailed fd msg.sequence
          (.controlHeartbeatAck s.smIncarnationId)

def handleLookup (fd : Int) (msg : ReceivedMessage) (s : App) : App :=
  let found := (tryReadStringArg msg).bind s.registry.findService
  s.sendMessage closeFailed fd msg.sequence (.lookupReply (found.map (·.info)))

def handleListInstances (fd : Int) (msg : ReceivedMessage) (s : App) : App :=
  let instances :=
    match tryReadStringArg msg with
    | none => []
    | some name => s.registry.listServiceInstances name
  s.sendMessage closeFailed fd msg.sequence (.listInstancesReply (!instances.isEmpty) instances)

def handleListServices (fd : Int) (msg : ReceivedMessage) (s : App) : App :=
  let services := s.registry.listServices.filter fun info =>
    !diagServiceNameStart.isPrefixOf info.name
  s.sendMessage closeFailed fd msg.sequence (.listServicesReply services)

def handleQueryInterfaces (fd : Int) (msg : ReceivedMessage) (s : App) : App :=
  let found := (tryReadStringArg msg).bind s.registry.findService
  s.sendMessage closeFailed fd msg.sequence
    (.queryInterfacesReply (found.map (·.info.interfaces)))

/-! ### Watches -/

/-- The instances a new filter matches, or its own identity as offline. -/
def sendInitialServiceWatch (fd : Int) (watchId : UInt64) (filter : ServiceWatchFilter) (s : App) :
    App :=
  let matching := ((s.registry.listServiceInstances filter.serviceName).map (·.identity)).filter
    fun identity => filter.matches identity
  if matching.isEmpty then
    s.sendServiceWatchNotify closeFailed fd watchId ⟨filter.serviceName, [], filter.instanceId⟩ false
  else
    matching.foldl
      (fun s identity => s.sendServiceWatchNotify closeFailed fd watchId identity true) s

def handleSubscribeServiceWatch (fd : Int) (msg : ReceivedMessage) (s : App) : App :=
  match readServiceWatchRequest.run msg.payload with
  | none => s.sendBoolReply fd MessageType.subscribeServiceWatchReply msg.sequence false
  | some (watchId, filters) =>
    match s.watchNotifier.subscribe fd watchId filters with
    | (false, _) => s.sendBoolReply fd MessageType.subscribeServiceWatchReply msg.sequence false
    | (true, watchNotifier) =>
      let s := { s with watchNotifier }.record (.watchSubscribed fd watchId)
      filters.foldl
        (fun s filter =>
          if s.clients.contains fd then s.sendInitialServiceWatch fd watchId filter else s)
        (s.sendBoolReply fd MessageType.subscribeServiceWatchReply msg.sequence true)

def handleUnsubscribeServiceWatch (fd : Int) (msg : ReceivedMessage) (s : App) : App :=
  match tryReadUint64.run msg.payload with
  | none => s
  | some watchId =>
    if watchId = 0 then s
    else { s with watchNotifier := s.watchNotifier.unsubscribe fd watchId }

/-! ### Topics -/

def handleQueryPublishedTopics (fd : Int) (msg : ReceivedMessage) (s : App) : App :=
  match tryReadExactStringArg msg maxServiceNameLength with
  | none => s.sendMessage closeFailed fd msg.sequence (.queryPublishedTopicsReply false [])
  | some name =>
    let found := (s.registry.findService name).isSome
    s.sendMessage closeFailed fd msg.sequence
      (.queryPublishedTopicsReply found
        (if found then s.topicManager.getPublishedTopics name else []))

def sendTopicPublisherNotify (fd : Int) (topic : Bytes) (info : ServiceInfo) (idlHash : UInt32)
    (s : App) : App :=
  if s.clients.contains fd then
    s.sendProactive closeFailed fd (.topicPublisherNotify topic info idlHash)
  else s

/-- Where the publisher is to be reached is taken from the registry. -/
def publishedInfo (info : ServiceInfo) (owner : ServiceEntry) : ServiceInfo :=
  { info with
    host := owner.info.host, port := owner.info.port, hostId := owner.info.hostId
    instanceId := owner.info.instanceId }

def handlePublishTopic (fd : Int) (msg : ReceivedMessage) (s : App) : App :=
  match parsePublishTopicRequest msg with
  | none => s.sendBoolReply fd MessageType.publishTopicReply msg.sequence false
  | some (topic, info, idlHash) =>
    match s.registry.findServiceByFdAndName fd info.name with
    | none => s.sendBoolReply fd MessageType.publishTopicReply msg.sequence false
    | some owner =>
      let info := publishedInfo info owner
      match s.topicManager.registerPublisher topic info fd idlHash with
      | (false, topicManager) =>
        { s with topicManager }.sendBoolReply fd MessageType.publishTopicReply msg.sequence
          false
      | (true, topicManager) =>
        let s := { s with topicManager }.record
          (.topicPublished info.name topic info.instanceId)
        let s := s.sendBoolReply fd MessageType.publishTopicReply msg.sequence true
        (s.topicManager.getMatchingSubscribers topic info).foldl
          (fun s subscriber => s.sendTopicPublisherNotify subscriber topic info idlHash) s

def handleUnpublishTopic (fd : Int) (msg : ReceivedMessage) (s : App) : App :=
  match tryReadExactTopicArg msg with
  | none => s
  | some topic => { s with topicManager := s.topicManager.removePublisher topic fd }

def handleSubscribeTopic (fd : Int) (msg : ReceivedMessage) (s : App) : App :=
  match parseSubscribeTopicRequest msg with
  | none => s.sendMessage closeFailed fd msg.sequence (.subscribeTopicReply false 0)
  | some (topic, selector) =>
    let (added, topicManager) := s.topicManager.addSubscriber topic selector fd
    let s := { s with topicManager }
    let s := if added then
        s.record (.topicSubscribed fd selector.publisherService topic selector.key)
      else s
    let idlHash := (s.topicManager.getIdlHash topic selector).getD 0
    let s := s.sendMessage closeFailed fd msg.sequence (.subscribeTopicReply added idlHash)
    (s.topicManager.getMatchingPublishers topic selector).foldl
      (fun s view => s.sendTopicPublisherNotify fd topic view.info view.idlHash) s

def handleUnsubscribeTopic (fd : Int) (msg : ReceivedMessage) (s : App) : App :=
  match parseSubscribeTopicRequest msg with
  | none => s
  | some (topic, selector) =>
    { s with topicManager := s.topicManager.removeSubscriber topic selector fd }

/-! ### Sessions and diagnostics -/

/-- The timeout of a session. A request of zero leaves it to the default of the ServiceManager. -/
def effectiveTimeout (s : App) (interval requestedTimeoutMs : UInt32) : UInt32 :=
  if requestedTimeoutMs = 0 then
    let timeout := s.defaultSessionTimeoutMs
    let timeout :=
      if s.maxSessionTimeoutMs ≠ 0 ∧ timeout > s.maxSessionTimeoutMs then s.maxSessionTimeoutMs
      else timeout
    if timeout = 0 then negotiateSessionTimeout interval 0 s.maxSessionTimeoutMs else timeout
  else negotiateSessionTimeout interval requestedTimeoutMs s.maxSessionTimeoutMs

/-- Close the connection that has the session so far. The watchers hear nothing of it when the runtime
    is still the same one. -/
def supersede (fd : Int) (sessionKey : Bytes) (incarnationId : UInt32) (s : App) : App :=
  match s.runtimeSessions[sessionKey]? with
  | none => s
  | some oldFd =>
    if oldFd = fd then s
    else
      let sameIncarnation :=
        match s.clients[oldFd]? with
        | none => false
        | some old => old.incarnationId = incarnationId
      s.closeClient oldFd (!sameIncarnation)

/-- Take the fields of a hello over into the connection, which gets its session deadline. -/
def ClientConnection.greet (conn : ClientConnection) (info : RuntimeInfo) (runtimeId : Bytes)
    (interval timeout : UInt32) : ClientConnection :=
  { conn with
    pid := info.pid, processName := info.processName, logLevel := info.logLevel
    runtimeRegistered := true, runtimeId, hostId := info.hostId
    sessionKey := makeRuntimeSessionKey info.hostId runtimeId
    incarnationId := info.incarnationId, sessionIntervalMs := interval
    sessionTimeoutMs := timeout, helloReceived := true, helloTimer := none }

/-- Enter the session and the process of a connection that has said hello. -/
def enterSession (fd : Int) (conn : ClientConnection) (info : RuntimeInfo) (runtimeId : Bytes)
    (interval timeout : UInt32) (s : App) : App :=
  let s :=
    { s with
      runtimeSessions := s.runtimeSessions.insert (makeRuntimeSessionKey info.hostId runtimeId) fd }
  let s := if conn.runtimeRegistered ∧ conn.pid ≠ info.pid then s.removePidFd conn.pid fd else s
  let s := (s.setClient fd (ClientConnection.greet conn info runtimeId interval timeout)).armSessionDeadline
    fd
  if fd ∈ s.pidToFds.values info.pid then s
  else { s with pidToFds := s.pidToFds.push info.pid fd }

def handleRuntimeHello (fd : Int) (msg : ReceivedMessage) (s : App) : App :=
  match acceptedHello msg with
  | none =>
    s.sendMessage closeFailed fd msg.sequence
      (.runtimeHelloReply ⟨sessionProtocolVersion, sessionStatusRejected, defaultHeartbeatInterval,
        defaultHeartbeatTimeout, s.smIncarnationId⟩)
  | some (info, runtimeId) =>
    let interval := clampHeartbeatInterval info.heartbeatIntervalMs
    let timeout := s.effectiveTimeout interval info.requestedTimeoutMs
    let s := s.supersede fd (makeRuntimeSessionKey info.hostId runtimeId) info.incarnationId
    match s.clients[fd]? with
    | none => s
    | some conn =>
      let s := s.enterSession fd conn info runtimeId interval timeout
      let status :=
        if interval = info.heartbeatIntervalMs
            ∧ (info.requestedTimeoutMs = 0 ∨ timeout = info.requestedTimeoutMs) then
          sessionStatusOk
        else sessionStatusClamped
      let reply := Outgoing.runtimeHelloReply
        ⟨sessionProtocolVersion, status, interval, timeout, s.smIncarnationId⟩
      if (reply.message msg.sequence).isNone then s.closeClient fd true
      else s.sendMessage closeFailed fd msg.sequence reply

/-- The names not listed yet, without those of the diagnostic services. -/
def mergeServices (services names : List Bytes) : List Bytes :=
  names.foldl
    (fun services name =>
      if diagServiceNameStart.isPrefixOf name ∨ name ∈ services then services
      else services ++ [name]) services

/-- The row of a process that has not been listed yet. -/
def runtimeRow (conn : ClientConnection) : RuntimeInfo :=
  { pid := conn.pid, processName := conn.processName, role := [], logLevel := conn.logLevel
    diagCapabilities := runtimeDiagCapWatch, services := []
    sessionVersion := sessionProtocolVersion, runtimeId := conn.runtimeId
    incarnationId := conn.incarnationId, heartbeatIntervalMs := conn.sessionIntervalMs
    requestedTimeoutMs := conn.sessionTimeoutMs, hostId := conn.hostId }

/-- Enter a connection into the list of processes, which is in the order of their first connections. -/
def listRuntime (names : List Bytes) (conn : ClientConnection) : List RuntimeInfo → List RuntimeInfo
  | [] => [{ runtimeRow conn with services := mergeServices [] names }]
  | row :: rows =>
    if row.pid = conn.pid then { row with services := mergeServices row.services names } :: rows
    else row :: listRuntime names conn rows

def handleRuntimeList (fd : Int) (msg : ReceivedMessage) (s : App) : App :=
  let rows := s.clients.toList.foldl
    (fun rows (client, conn) =>
      if conn.runtimeRegistered then
        listRuntime (s.registry.listServiceNamesByFd client) conn rows
      else rows) []
  let rows := rows.map fun row =>
    { row with role := if row.services.isEmpty then ascii "client" else ascii "service" }
  s.sendMessage closeFailed fd msg.sequence (.runtimeListReply rows)

/-- One turn of the loop of `handleDiagSetLogLevel`. -/
def setLogLevel (level : UInt32) (fd : Int) (s : App) : Bool × App :=
  let s := s.sendProactive closeFailed fd (.diagSetLogLevel level)
  match s.clients[fd]? with
  | none => (false, s)
  | some conn => (true, s.setClient fd { conn with logLevel := level })

def handleDiagSetLogLevel (fd : Int) (msg : ReceivedMessage) (s : App) : App :=
  let request : View (UInt32 × UInt32) := do
    let pid ← tryReadUint32
    let level ← tryReadUint32
    if level > logOff then View.fail else return (pid, level)
  match request.run msg.payload with
  | none => s.sendBoolReply fd MessageType.diagSetLogLevelReply msg.sequence false
  | some (pid, level) =>
    let (sent, s) := s.forEachPidConn pid fd (setLogLevel level)
    s.sendBoolReply fd MessageType.diagSetLogLevelReply msg.sequence sent

/-- One turn of the loop of `handleDiagWatchStart`. -/
def startWatch (fd : Int) (s : App) : Bool × App :=
  let s := s.sendProactive closeFailed fd .diagWatchStart
  (s.clients.contains fd, s)

/-- Both directions of a watch relation. -/
def addWatcher (watcherFd : Int) (pid : UInt32) (s : App) : App :=
  { s with
    watcherToPids := s.watcherToPids.add watcherFd pid
    pidWatchers :=
      if watcherFd ∈ s.pidWatchers.values pid then s.pidWatchers
      else s.pidWatchers.push pid watcherFd }

def handleDiagWatchStart (fd : Int) (msg : ReceivedMessage) (s : App) : App :=
  match tryReadUint32.run msg.payload with
  | none => s.sendBoolReply fd MessageType.diagWatchStartReply msg.sequence false
  | some pid =>
    let (sent, s) := s.forEachPidConn pid fd startWatch
    if s.clients.contains fd then
      let s := if sent then s.addWatcher fd pid else s
      s.sendBoolReply fd MessageType.diagWatchStartReply msg.sequence sent
    else s

def removeWatcherPair (watcherFd : Int) (pid : UInt32) (s : App) : App :=
  if pid ∈ s.watcherToPids.values watcherFd then
    { s with watcherToPids := s.watcherToPids.remove watcherFd pid }.stopTargetIfUnwatched closeFailed
      pid watcherFd
  else s

def handleDiagWatchStop (fd : Int) (msg : ReceivedMessage) (s : App) : App :=
  match tryReadUint32.run msg.payload with
  | none => s.sendBoolReply fd MessageType.diagWatchStopReply msg.sequence false
  | some pid =>
    (s.removeWatcherPair fd pid).sendBoolReply fd MessageType.diagWatchStopReply msg.sequence true

/-! ### Dispatch and events -/

def dispatchMessage (fd : Int) (conn : ClientConnection) (msg : ReceivedMessage) (s : App) : App :=
  if msg.type = MessageType.register then s.handleRegister fd conn msg
  else if msg.type = MessageType.unregister then s.handleUnregister fd msg
  else if msg.type = MessageType.controlHeartbeat then s.handleControlHeartbeat fd conn msg
  else if msg.type = MessageType.lookup then s.handleLookup fd msg
  else if msg.type = MessageType.listInstances then s.handleListInstances fd msg
  else if msg.type = MessageType.listServices then s.handleListServices fd msg
  else if msg.type = MessageType.queryInterfaces then s.handleQueryInterfaces fd msg
  else if msg.type = MessageType.queryPublishedTopics then s.handleQueryPublishedTopics fd msg
  else if msg.type = MessageType.subscribeServiceWatch then s.handleSubscribeServiceWatch fd msg
  else if msg.type = MessageType.unsubscribeServiceWatch then s.handleUnsubscribeServiceWatch fd msg
  else if msg.type = MessageType.publishTopic then s.handlePublishTopic fd msg
  else if msg.type = MessageType.subscribeTopic then s.handleSubscribeTopic fd msg
  else if msg.type = MessageType.unsubscribeTopic then s.handleUnsubscribeTopic fd msg
  else if msg.type = MessageType.unpublishTopic then s.handleUnpublishTopic fd msg
  else if msg.type = MessageType.runtimeHello then s.handleRuntimeHello fd msg
  else if msg.type = MessageType.runtimeList then s.handleRuntimeList fd msg
  else if msg.type = MessageType.diagSetLogLevel then s.handleDiagSetLogLevel fd msg
  else if msg.type = MessageType.diagWatchStart then s.handleDiagWatchStart fd msg
  else if msg.type = MessageType.diagWatchStop then s.handleDiagWatchStop fd msg
  else s

/-- A connection that is in the table already is not entered again. -/
def onClientAccepted (fd : Int) (s : App) : App :=
  if s.clients.contains fd then s
  else
    { s.setClient fd
        { ClientConnection.init s.nextSerial with sessionGeneration := 1, helloTimer := some 1 } with
      nextSerial := s.nextSerial + 1
      trace := .accepted fd s.nextSerial :: s.trace }

/-- The loop of `flushPendingSends`: whether no send failed, how far the buffer is sent, the outcomes
    left over. -/
def flushLoop (size : Nat) : List SendOutcome → Nat → Bool × Nat × List SendOutcome
  | [], _ => (true, size, [])
  | outcome :: plan, offset =>
    if offset < size then
      match outcome with
      | .failed => (false, offset, plan)
      | .accepted count =>
        if min count (size - offset) = 0 then (true, offset, plan)
        else flushLoop size plan (offset + min count (size - offset))
    else (true, offset, outcome :: plan)

/-- A connection is written to again. -/
def onClientWritable (fd : Int) (s : App) : App :=
  match s.clients[fd]? with
  | none => s
  | some conn =>
    let (ok, offset, plan) := flushLoop conn.sendBuffer.size s.plan conn.sendOffset
    let sent := (conn.sendBuffer.bytes.take offset).drop conn.sendOffset
    let s := { s with plan }.record (.transmitted fd sent)
    if !ok then (s.setClient fd { conn with sendOffset := offset }).closeClient fd true
    else if offset < conn.sendBuffer.size then
      s.setClient fd { conn with sendOffset := offset, writeEvents := true }
    else
      s.setClient fd
        { conn with sendBuffer := conn.sendBuffer.clear, sendOffset := 0, writeEvents := false }

/-- The hello timer fires, once. -/
def onHelloTimer (fd : Int) (s : App) : App :=
  match s.clients[fd]? with
  | none => s
  | some conn =>
    let s := s.setClient fd { conn with helloTimer := none }
    if conn.helloTimer = some conn.sessionGeneration ∧ !conn.helloReceived then
      s.closeClient fd true
    else s

/-- The deadline of a session passes, once for each time it was set. -/
def onSessionTimer (fd : Int) (s : App) : App :=
  match s.clients[fd]? with
  | none => s
  | some conn =>
    let s := s.setClient fd { conn with deadlineTimer := none }
    if conn.deadlineTimer = some conn.sessionGeneration then s.closeClient fd true else s

end App

/-- The events of the loop. Descriptors are not negative. -/
inductive Event where
  | accept (fd : Nat)
  | message (fd : Int) (msg : ReceivedMessage)
  | disconnect (fd : Int)
  | writable (fd : Int)
  | helloTimer (fd : Int)
  | sessionTimer (fd : Int)

namespace App

def handle (s : App) : Event → App
  | .accept fd => s.onClientAccepted fd
  | .message fd msg =>
    match s.clients[fd]? with
    | none => s
    | some conn => s.dispatchMessage fd conn msg
  | .disconnect fd => s.closeClient fd true
  | .writable fd => s.onClientWritable fd
  | .helloTimer fd => s.onHelloTimer fd
  | .sessionTimer fd => s.onSessionTimer fd

/-- An event, with the way the transport takes the sends it leads to. -/
def step (s : App) (event : Event × List SendOutcome) : App :=
  { s with plan := event.2 }.handle event.1

def run (s : App) (events : List (Event × List SendOutcome)) : App := events.foldl step s

end App

/-- The frame of a message, unless it cannot be serialized. -/
def Outgoing.frame (out : Outgoing) (sequence : UInt32) : Option Bytes :=
  match out.message sequence with
  | none => none
  | some msg =>
    match msg.serialize .succeeds Buffer.init with
    | (false, _) => none
    | (true, output) => some output.bytes

/-- The part of `send_buffer` behind `send_offset`. -/
def ClientConnection.unsent (conn : ClientConnection) : Bytes :=
  conn.sendBuffer.bytes.drop conn.sendOffset

/-- What the transport has taken for a descriptor since its connection was accepted. -/
def acceptedBytes (fd : Int) : List TraceEntry → Bytes
  | [] => []
  | .accepted fd' _ :: trace => if fd' = fd then [] else acceptedBytes fd trace
  | .transmitted fd' content :: trace =>
    if fd' = fd then acceptedBytes fd trace ++ content else acceptedBytes fd trace
  | _ :: trace => acceptedBytes fd trace

/-- The frames of all messages handed over for a descriptor since its connection was accepted. -/
def calledFrames (fd : Int) : List TraceEntry → Bytes
  | [] => []
  | .accepted fd' _ :: trace => if fd' = fd then [] else calledFrames fd trace
  | .handed fd' sequence out :: trace =>
    if fd' = fd then calledFrames fd trace ++ (out.frame sequence).getD []
    else calledFrames fd trace
  | _ :: trace => calledFrames fd trace

/-- An event of the loop, or a call of `sendMessage` on its own. -/
inductive SendStep where
  | event (event : Event)
  | sendMessage (fd : Int) (sequence : UInt32) (out : Outgoing)

namespace App

/-- A step, with the way the transport takes the sends it leads to. -/
def perform (s : App) : SendStep × List SendOutcome → App
  | (.event event, plan) => s.step (event, plan)
  | (.sendMessage fd sequence out, plan) =>
    { s with plan }.sendMessage closeFailed fd sequence out

/-- No write to a queue has failed for want of memory. -/
def written (s : App) : Bool := s.clients.toList.all fun (_, conn) => conn.sendBuffer.writeOk

end App

end OmniBinder.ServiceManager
