/-
Module: OmniBinder.ServiceManager.App
Purpose: The state of `service_manager/service_manager_app.cpp` and what every handler rests on: sending
  with back-pressure, closing a connection, the watch notifications and the diagnostic watch relations;
  and what a reader of the trace sees.
Trusted boundary: human-reviewed spec
Main exports: App.closeClient, lastSaid, Announced
-/
import OmniBinder.ServiceManager.Outgoing
import OmniBinder.ServiceManager.Registry
import OmniBinder.ServiceManager.TopicIndex
import OmniBinder.ServiceManager.WatchNotifier

namespace OmniBinder.ServiceManager

/-! ### The state -/

/-- How the transport takes one send: with an error, or with a number of bytes. -/
inductive SendOutcome where
  | failed
  | accepted (count : Nat)
deriving DecidableEq, Repr

/-- `ClientConnection`. A timer is the generation it was armed with, and `serial` tells connections
    apart that have had the same descriptor. -/
structure ClientConnection where
  sendBuffer : Buffer
  sendOffset : Nat
  writeEvents : Bool
  pid : UInt32
  processName : Bytes
  logLevel : UInt32
  runtimeRegistered : Bool
  sessionKey : Bytes
  runtimeId : Bytes
  hostId : Bytes
  incarnationId : UInt32
  sessionIntervalMs : UInt32
  sessionTimeoutMs : UInt32
  helloReceived : Bool
  helloTimer : Option Nat
  deadlineTimer : Option Nat
  sessionGeneration : Nat
  serial : Nat
deriving DecidableEq, Repr

/-- The constructor. -/
def ClientConnection.init (serial : Nat) : ClientConnection :=
  { sendBuffer := Buffer.init, sendOffset := 0, writeEvents := false, pid := 0, processName := []
    logLevel := logInfo, runtimeRegistered := false, sessionKey := [], runtimeId := [], hostId := []
    incarnationId := 0, sessionIntervalMs := defaultHeartbeatInterval
    sessionTimeoutMs := defaultHeartbeatTimeout, helloReceived := false, helloTimer := none
    deadlineTimer := none, sessionGeneration := 0, serial }

/-- What has happened, as far as the tables do not tell. `handed` is a call of `sendMessage`, and
    `serviceDropped` is the loss of an instance that the watchers are not told of. -/
inductive TraceEntry where
  | accepted (fd : Int) (serial : Nat)
  | closed (fd : Int) (serial : Nat)
  | handed (fd : Int) (sequence : UInt32) (out : Outgoing)
  | transmitted (fd : Int) (content : Bytes)
  | watchSubscribed (fd : Int) (watchId : UInt64)
  | serviceRegistered (name instanceId : Bytes)
  | serviceDropped (name instanceId : Bytes)
  | topicSubscribed (fd : Int) (service topic selectorKey : Bytes)
  | topicPublished (service topic instanceId : Bytes)
deriving DecidableEq, Repr

/-- `ServiceManagerApp`. `plan` says how the transport will take the next sends, and when it is used up
    every send is taken as a whole. The trace has its newest entry first. -/
structure App where
  clients : Table Int ClientConnection
  pidToFds : ListIndex UInt32 Int
  pidWatchers : ListIndex UInt32 Int
  watcherToPids : SetIndex Int UInt32
  registry : ServiceRegistry
  watchNotifier : ServiceWatchNotifier
  topicManager : TopicManager
  runtimeSessions : Table Bytes Int
  defaultSessionTimeoutMs : UInt32
  maxSessionTimeoutMs : UInt32
  smIncarnationId : UInt32
  smSeqCounter : UInt32
  plan : List SendOutcome
  nextSerial : Nat
  trace : List TraceEntry

/-- `SM_PROACTIVE_SEQ_BASE`. -/
def smProactiveSeqBase : UInt32 := 0x40000000

namespace App

def init (heartbeatTimeoutMs smIncarnationId : UInt32) : App :=
  { clients := ∅, pidToFds := .empty, pidWatchers := .empty, watcherToPids := .empty
    registry := .init, watchNotifier := .init, topicManager := .init, runtimeSessions := ∅
    defaultSessionTimeoutMs :=
      if heartbeatTimeoutMs > 0 then heartbeatTimeoutMs else defaultHeartbeatTimeout
    maxSessionTimeoutMs := 0, smIncarnationId, smSeqCounter := smProactiveSeqBase
    plan := [], nextSerial := 0, trace := [] }

def record (s : App) (entry : TraceEntry) : App := { s with trace := entry :: s.trace }

def setClient (s : App) (fd : Int) (conn : ClientConnection) : App :=
  { s with clients := s.clients.insert fd conn }

/-- The next sequence number of a message that answers no request. -/
def nextSMProactiveSequence (s : App) : UInt32 × App :=
  let next := s.smSeqCounter + 1
  (s.smSeqCounter,
    { s with smSeqCounter := if next < smProactiveSeqBase then smProactiveSeqBase else next })

/-! ### Sending -/

/-- How many of the offered bytes the transport takes, unless it fails. -/
def takeOutcome (s : App) (offered : Nat) : Option Nat × App :=
  match s.plan with
  | [] => (some offered, s)
  | .failed :: plan => (none, { s with plan })
  | .accepted count :: plan => (some (min count offered), { s with plan })

section
variable (close : Int → App → App)

/-- Queue a frame behind bytes that are still to be sent, or try to send it and queue the rest. -/
def sendFrame (fd : Int) (conn : ClientConnection) (frame : Bytes) (s : App) : App :=
  if conn.sendOffset < conn.sendBuffer.size then
    if conn.sendBuffer.size - conn.sendOffset + frame.length > maxMessageSize then close fd s
    else
      s.setClient fd
        { conn with
          sendBuffer := (conn.sendBuffer.writeRaw .succeeds frame).2
          writeEvents := true }
  else
    match s.takeOutcome frame.length with
    | (none, s) => close fd s
    | (some sent, s) =>
      let s := s.record (.transmitted fd (frame.take sent))
      if sent < frame.length then
        s.setClient fd
          { conn with
            sendBuffer := conn.sendBuffer.assign .succeeds (frame.drop sent)
            sendOffset := 0
            writeEvents := true }
      else s

/-- Build a message and send it to a client. A client that is gone gets nothing, nor does one whose
    message the handler gives up. -/
def sendMessage (fd : Int) (sequence : UInt32) (out : Outgoing) (s : App) : App :=
  match s.clients[fd]?, out.message sequence with
  | some conn, some msg =>
    let s := s.record (.handed fd sequence out)
    match msg.serialize .succeeds Buffer.init with
    | (false, _) => s
    | (true, output) => s.sendFrame close fd conn output.bytes
  | _, _ => s

/-- A message under a sequence number of the ServiceManager's own. -/
def sendProactive (fd : Int) (out : Outgoing) (s : App) : App :=
  let (sequence, s) := s.nextSMProactiveSequence
  s.sendMessage close fd sequence out

/-- Every caller looks first whether the client is still there. -/
def sendServiceWatchNotify (fd : Int) (watchId : UInt64) (identity : ServiceIdentity) (online : Bool)
    (s : App) : App :=
  if s.clients.contains fd then
    s.sendProactive close fd (.serviceWatchNotify watchId identity online)
  else s

def notifyServiceWatch (identity : ServiceIdentity) (online : Bool) (s : App) : App :=
  (s.watchNotifier.matching identity).foldl
    (fun s group => s.sendServiceWatchNotify close group.subscriberFd group.watchId identity online) s

def notifyServiceRemoved (identity : ServiceIdentity) (s : App) : App :=
  s.notifyServiceWatch close identity false

/-! ### Diagnostic watches -/

/-- The loop runs over a copy of the descriptors. -/
def forEachPidConn (pid : UInt32) (exceptFd : Int) (visitor : Int → App → Bool × App) (s : App) :
    Bool × App :=
  (s.pidToFds.values pid).foldl
    (fun (handled, s) fd =>
      if !s.clients.contains fd ∨ fd = exceptFd then (handled, s)
      else
        let (ok, s) := visitor fd s
        (handled || ok, s)) (false, s)

def sendDiagWatchStopToPid (pid : UInt32) (exceptFd : Int) (s : App) : App :=
  (s.forEachPidConn pid exceptFd fun fd s => (true, s.sendProactive close fd .diagWatchStop)).2

def stopTargetIfUnwatched (pid : UInt32) (watcherFd : Int) (s : App) : App :=
  let s := { s with pidWatchers := s.pidWatchers.update pid fun fds => fds.filter (· ≠ watcherFd) }
  if s.pidWatchers.hasKey pid then s else s.sendDiagWatchStopToPid close pid watcherFd

def removeWatcherAndMaybeStopTargets (watcherFd : Int) (s : App) : App :=
  (s.watcherToPids.values watcherFd).foldl (fun s pid => s.stopTargetIfUnwatched close pid watcherFd)
    { s with watcherToPids := s.watcherToPids.eraseKey watcherFd }

end

def removePidFd (pid : UInt32) (fd : Int) (s : App) : App :=
  { s with pidToFds := s.pidToFds.update pid fun fds => fds.filter (· ≠ fd) }

def removeTargetWatchers (pid : UInt32) (s : App) : App :=
  { s with
    pidWatchers := s.pidWatchers.eraseKey pid
    watcherToPids := (s.pidWatchers.values pid).foldl (fun index fd => index.remove fd pid)
      s.watcherToPids }

/-! ### Closing a connection -/

/-- The first part of `closeClient`: the connection leaves the table of clients, the sessions and, with
    everything it owns, the registry. -/
def detach (fd : Int) (conn : ClientConnection) (notify : Bool) (s : App) :
    List ServiceIdentity × App :=
  let (removed, registry) := s.registry.removeByFd fd
  let dropped := if notify then []
    else removed.map fun identity => TraceEntry.serviceDropped identity.name identity.instanceId
  (removed,
    { s with
      clients := s.clients.erase fd
      runtimeSessions :=
        if !conn.sessionKey.isEmpty ∧ s.runtimeSessions[conn.sessionKey]? = some fd then
          s.runtimeSessions.erase conn.sessionKey
        else s.runtimeSessions
      registry
      trace := dropped ++ .closed fd conn.serial :: s.trace })

/-- The second part: its watches, its topics and its place under its process. -/
def forget (fd : Int) (conn : ClientConnection) (s : App) : App :=
  let s :=
    { s with
      watchNotifier := s.watchNotifier.removeSubscriber fd
      topicManager := s.topicManager.removeByFd fd }
  if conn.runtimeRegistered then
    let s := s.removePidFd conn.pid fd
    if s.pidToFds.hasKey conn.pid then s else s.removeTargetWatchers conn.pid
  else s

/-- `closeClient` with a bound on how deeply closing nests. A connection is out of the table of clients
    before anything is sent, so the number of clients is bound enough. -/
def closeNested : Nat → Int → Bool → App → App
  | 0, _, _, s => s
  | fuel + 1, fd, notify, s =>
    match s.clients[fd]? with
    | none => s
    | some conn =>
      let close := fun fd s => closeNested fuel fd true s
      let (removed, s) := s.detach fd conn notify
      let s := if notify then
          removed.foldl (fun s identity => s.notifyServiceRemoved close identity) s
        else s
      (s.forget fd conn).removeWatcherAndMaybeStopTargets close fd

def closeClient (fd : Int) (notifyServiceDeath : Bool) (s : App) : App :=
  closeNested s.clients.size fd notifyServiceDeath s

/-- Closing as a failed send does it. -/
def closeFailed (fd : Int) (s : App) : App := s.closeClient fd true

end App

/-- What the group under a key was told last about an instance since it subscribed. -/
def lastSaid (key : WatchKey) (name instanceId : Bytes) : List TraceEntry → Option Bool
  | [] => none
  | .handed fd _ (.serviceWatchNotify watchId identity online) :: trace =>
    if fd = key.fd ∧ watchId = key.watchId ∧ identity.name = name
        ∧ identity.instanceId = instanceId then some online
    else lastSaid key name instanceId trace
  | .watchSubscribed fd watchId :: trace =>
    if fd = key.fd ∧ watchId = key.watchId then none else lastSaid key name instanceId trace
  | _ :: trace => lastSaid key name instanceId trace

/-- The instance was lost without a word to the watchers, and has not been registered since. -/
def droppedSilently (name instanceId : Bytes) : List TraceEntry → Bool
  | [] => false
  | .serviceDropped n i :: trace =>
    (n = name ∧ i = instanceId) || droppedSilently name instanceId trace
  | .serviceRegistered n i :: trace =>
    !(n = name ∧ i = instanceId) && droppedSilently name instanceId trace
  | _ :: trace => droppedSilently name instanceId trace

/-- The serial numbers of the connections that were closed, the last one first. -/
def closedSerials (trace : List TraceEntry) : List Nat :=
  trace.filterMap fun
    | .closed _ serial => some serial
    | _ => none

/-- A publisher was announced to a connection, and neither the subscription nor the publication has been
    stored anew since. -/
def Announced (fd : Int) (topic : Bytes) (selector : TopicSubscriptionFilter) (slot : PublisherSlot)
    (trace : List TraceEntry) : Prop :=
  ∃ newer older sequence,
    trace = newer ++
      .handed fd sequence (.topicPublisherNotify topic slot.info slot.idlHash) :: older ∧
    .topicSubscribed fd selector.publisherService topic selector.key ∉ newer ∧
    .topicPublished slot.info.name topic slot.info.instanceId ∉ newer

namespace App

/-- The registry has the instance. -/
def registered (s : App) (name instanceId : Bytes) : Bool :=
  (s.registry.findEntry name instanceId).isSome

/-- A connection occurs in one of the tables beside that of the clients. -/
def Mentions (s : App) (fd : Int) : Prop :=
  (s.registry.tables.fdToServices.hasKey fd = true ∨ s.registry.Owns fd) ∨
    s.topicManager.Mentions fd ∨ s.watchNotifier.Mentions fd ∨
    (∃ pid, fd ∈ s.pidToFds.values pid) ∨ (∃ pid, fd ∈ s.pidWatchers.values pid) ∨
    s.watcherToPids.hasKey fd = true

end App

end OmniBinder.ServiceManager
