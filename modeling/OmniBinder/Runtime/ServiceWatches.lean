/-
Module: OmniBinder.Runtime.ServiceWatches
Purpose: The watches of a client runtime: `watchServicesInternal`, `unwatchServicesInternal` and
  `restoreServiceWatch` of `src/core/runtime_topic.cpp`, and `handleServiceWatchNotify` of
  `src/core/runtime_sm.cpp`.
Trusted boundary: human-reviewed spec
Main exports: ServiceWatchRequest, WatchClient.step
-/
import OmniBinder.Core.ServiceCodec
import OmniBinder.Lib.Machine
import OmniBinder.Lib.Table

namespace OmniBinder

/-! ### Requests -/

structure ServiceWatchRequest where
  serviceName : Bytes
  hostId : Bytes
  instanceId : Bytes
deriving DecidableEq, Repr

/-- The host takes no part; only two different instances keep requests for one service apart. -/
def watchesOverlap (a b : ServiceWatchRequest) : Bool :=
  if a.serviceName ≠ b.serviceName then false
  else if !a.instanceId.isEmpty ∧ !b.instanceId.isEmpty ∧ a.instanceId ≠ b.instanceId then false
  else true

def validWatchRequests (requests : List ServiceWatchRequest) : Bool :=
  if requests.isEmpty ∨ requests.length > 64 then false
  else
    (requests.all fun request =>
      !request.serviceName.isEmpty && request.serviceName.length ≤ maxServiceNameLength
        && request.hostId.length ≤ maxServiceNameLength
        && request.instanceId.length ≤ maxServiceNameLength) &&
      decide (requests.Pairwise fun earlier later => watchesOverlap later earlier = false)

/-! ### The state -/

structure ServiceWatchEvent where
  identity : ServiceIdentity
  online : Bool
deriving DecidableEq, Repr

/-- A callback stands for the function the user has passed. The events in `pending` have the numbers of
    their notifications. -/
structure ServiceWatchSubscription where
  serial : Nat
  requests : List ServiceWatchRequest
  callback : Nat
  active : Bool
  pending : List (Nat × ServiceWatchEvent)
deriving DecidableEq, Repr

/-- A call that is interrupted: it waits for its reply, or for the user's callback to return. -/
inductive WatchCall where
  | watchServices (watchId : UInt64)
  | restoreServiceWatch (watchId : UInt64)
  | replay (serial : Nat) (watchId : UInt64) (callback : Nat) (rest : List (Nat × ServiceWatchEvent))
deriving DecidableEq, Repr

/-- What a reader of a run wants to know of it, the last entry first. -/
inductive WatchEntry where
  | notified (serial number : Nat) (event : ServiceWatchEvent)
  | invoked (serial number : Nat) (callback : Nat) (watchId : UInt64) (event : ServiceWatchEvent)
  | returned (watchId : UInt64) (error : Option ErrorCode)
deriving DecidableEq, Repr

structure WatchClient where
  serviceWatches : Table UInt64 ServiceWatchSubscription
  nextWatchId : UInt64
  calls : List WatchCall
  arrived : Nat
  nextSerial : Nat
  history : List WatchEntry

namespace WatchClient

def init : WatchClient := ⟨∅, 1, [], 0, 0, []⟩

def record (s : WatchClient) (entry : WatchEntry) : WatchClient :=
  { s with history := entry :: s.history }

def suspend (s : WatchClient) (call : WatchCall) : WatchClient := { s with calls := call :: s.calls }

def setWatch (s : WatchClient) (watchId : UInt64) (sub : ServiceWatchSubscription) : WatchClient :=
  { s with serviceWatches := s.serviceWatches.insert watchId sub }

def eraseWatch (s : WatchClient) (watchId : UInt64) : WatchClient :=
  { s with serviceWatches := s.serviceWatches.erase watchId }

/-! ### Replaying what came in before the watch was active -/

/-- The loop over the pending events, up to the next call of the callback. The watch is looked up again
    before each, since the callback may have taken it back. -/
def replay (s : WatchClient) (serial : Nat) (watchId : UInt64) (callback : Nat) :
    List (Nat × ServiceWatchEvent) → WatchClient
  | [] => s.record (.returned watchId none)
  | (number, event) :: rest =>
    if s.serviceWatches.contains watchId then
      (s.record (.invoked serial number callback watchId event)).suspend
        (.replay serial watchId callback rest)
    else s.record (.returned watchId none)

/-- The end of `watchServicesInternal` and of `restoreServiceWatch`: the watch becomes active, and what
    has come in for it is replayed. -/
def activate (s : WatchClient) (watchId : UInt64) : WatchClient :=
  match s.serviceWatches[watchId]? with
  | none => s.record (.returned watchId none)
  | some sub =>
    (s.setWatch watchId { sub with active := true, pending := [] }).replay sub.serial watchId
      sub.callback sub.pending

/-! ### Calls of the user and of the recovery -/

/-- The ids that the counter runs through, as far as a free one can be away. -/
def idCandidates (s : WatchClient) : List UInt64 :=
  (List.range (s.serviceWatches.size + 2)).map fun n => s.nextWatchId + UInt64.ofNat n

/-- The next id of the counter that is neither zero nor in use. There is one as long as not all 64-bit
    numbers are in use. -/
def allocWatchId (s : WatchClient) : Option UInt64 :=
  s.idCandidates.find? fun id => id ≠ 0 ∧ !s.serviceWatches.contains id

/-- Before the control connection is ready the watch is only remembered, for the recovery to send it.
    Otherwise the call waits for the reply. -/
def watchServices (s : WatchClient) (requests : List ServiceWatchRequest) (callback : Option Nat)
    (ready : Bool) : WatchClient :=
  match callback with
  | none => s.record (.returned 0 (some .errInvalidParam))
  | some callback =>
    if !validWatchRequests requests then s.record (.returned 0 (some .errInvalidParam))
    else
      match s.allocWatchId with
      | none => s
      | some id =>
        let s := { s with nextWatchId := id + 1, nextSerial := s.nextSerial + 1 }.setWatch id
          ⟨s.nextSerial, requests, callback, false, []⟩
        if ready then s.suspend (.watchServices id) else s.record (.returned id none)

def unwatchServices (s : WatchClient) (watchId : UInt64) : WatchClient :=
  if watchId = 0 then s.record (.returned 0 (some .errInvalidParam))
  else (s.eraseWatch watchId).record (.returned watchId none)

/-- The watch is sent again on a new control connection. What came in on the old one is dropped. -/
def restoreServiceWatch (s : WatchClient) (watchId : UInt64) : WatchClient :=
  match s.serviceWatches[watchId]? with
  | none => s
  | some sub =>
    (s.setWatch watchId { sub with active := false, pending := [] }).suspend
      (.restoreServiceWatch watchId)

/-- What a request to the ServiceManager ends with. -/
inductive Reply where
  | failed (code : ErrorCode)
  | malformed
  | answered (accepted : Bool)
deriving DecidableEq, Repr

/-- A call of `watchServices` that gets its reply. Whatever goes wrong takes the watch back. -/
def watchReplied (s : WatchClient) (watchId : UInt64) : Reply → WatchClient
  | .failed code => (s.eraseWatch watchId).record (.returned watchId (some code))
  | .malformed => (s.eraseWatch watchId).record (.returned watchId (some .errDeserialize))
  | .answered false => (s.eraseWatch watchId).record (.returned watchId (some .errInvalidParam))
  | .answered true => s.activate watchId

/-- A watch that is sent again and gets its reply. A refusal is only logged. -/
def restoreReplied (s : WatchClient) (watchId : UInt64) : Reply → WatchClient
  | .failed code => s.record (.returned watchId (some code))
  | .malformed => s.record (.returned watchId none)
  | .answered false => s.record (.returned watchId none)
  | .answered true => s.activate watchId

/-- The innermost call gets its reply. -/
def replied (s : WatchClient) (reply : Reply) : WatchClient :=
  match s.calls with
  | .watchServices watchId :: calls => { s with calls }.watchReplied watchId reply
  | .restoreServiceWatch watchId :: calls => { s with calls }.restoreReplied watchId reply
  | _ => s

/-- The callback that the innermost call has made returns. -/
def callbackReturned (s : WatchClient) : WatchClient :=
  match s.calls with
  | .replay serial watchId callback rest :: calls =>
    { s with calls }.replay serial watchId callback rest
  | _ => s

/-! ### Notifications -/

def decodeServiceWatchNotify : View (UInt64 × ServiceWatchEvent) := do
  let watchId ← tryReadUint64
  let name ← tryReadString
  let hostId ← tryReadString
  let instanceId ← tryReadString
  let online ← tryReadBool
  if name.isEmpty then View.fail else return (watchId, ⟨⟨name, hostId, instanceId⟩, online⟩)

/-- An event for an active watch goes to the callback at once. That the connections to an instance that
    goes offline are given up first is left out. -/
def handleServiceWatchNotify (s : WatchClient) (payload : Bytes) : WatchClient :=
  match decodeServiceWatchNotify.run payload with
  | none => s
  | some (watchId, event) =>
    let number := s.arrived
    let s := { s with arrived := s.arrived + 1 }
    match s.serviceWatches[watchId]? with
    | none => s
    | some sub =>
      let s := s.record (.notified sub.serial number event)
      if sub.active then s.record (.invoked sub.serial number sub.callback watchId event)
      else s.setWatch watchId { sub with pending := sub.pending ++ [(number, event)] }

end WatchClient

/-- Everything that can happen to the watches of a runtime. -/
inductive WatchClientEvent where
  | watchServices (requests : List ServiceWatchRequest) (callback : Option Nat) (ready : Bool)
  | unwatchServices (watchId : UInt64)
  | restoreServiceWatch (watchId : UInt64)
  | replied (reply : WatchClient.Reply)
  | callbackReturned
  | notify (payload : Bytes)

def WatchClient.step (s : WatchClient) : WatchClientEvent → WatchClient
  | .watchServices requests callback ready => s.watchServices requests callback ready
  | .unwatchServices watchId => s.unwatchServices watchId
  | .restoreServiceWatch watchId => s.restoreServiceWatch watchId
  | .replied reply => s.replied reply
  | .callbackReturned => s.callbackReturned
  | .notify payload => s.handleServiceWatchNotify payload

end OmniBinder
