/-
Module: OmniBinder.Runtime.RpcRuntime
Purpose: Waiting for replies: the slots of `src/core/pending_reply_table.cpp`, the wait loop of
  `src/core/rpc_runtime.cpp`, the routing of replies into the slots of `src/core/runtime_rpc.cpp`, and the
  calls of `src/core/runtime_service.cpp` that ask for a list, from the end of the request on.
Trusted boundary: human-reviewed spec
Main exports: ReplySlot, ReplyWaits.step, queryInterfacesInternal
-/
import OmniBinder.Runtime.DataPlane
import OmniBinder.Runtime.LoopThread
import OmniBinder.ServiceManager.Outgoing

namespace OmniBinder

/-! ### The slots -/

structure ReplySlot where
  ready : Bool
  failed : Bool
  message : Message
deriving DecidableEq, Repr

/-- The default constructor of a slot. -/
def ReplySlot.init : ReplySlot := ⟨false, false, Message.init⟩

structure PendingReplyTable where
  replies : Table UInt32 ReplySlot

namespace PendingReplyTable

def init : PendingReplyTable := ⟨∅⟩

/-- A reply that has come in is given up with its slot, and a slot without one is marked. -/
def clear (t : PendingReplyTable) : PendingReplyTable :=
  ⟨t.replies.filterMap fun _ slot => if slot.ready then none else some { slot with failed := true }⟩

def beginWait (t : PendingReplyTable) (seq : UInt32) : PendingReplyTable :=
  match t.replies[seq]? with
  | none => ⟨t.replies.insert seq ReplySlot.init⟩
  | some slot =>
    if slot.ready then t
    else
      ⟨t.replies.insert seq
        ⟨false, false, { slot.message with payload := slot.message.payload.clear }⟩⟩

def isWaiting (t : PendingReplyTable) (seq : UInt32) : Bool :=
  match t.replies[seq]? with
  | none => false
  | some slot => !slot.ready && !slot.failed

def pendingReply (t : PendingReplyTable) (seq : UInt32) : Option Message :=
  match t.replies[seq]? with
  | none => none
  | some slot => if slot.ready then some slot.message else none

def isFailed (t : PendingReplyTable) (seq : UInt32) : Bool :=
  match t.replies[seq]? with
  | none => false
  | some slot => slot.failed

def takeReply (t : PendingReplyTable) (seq : UInt32) : Option Message × PendingReplyTable :=
  match t.replies[seq]? with
  | none => (none, t)
  | some slot => if slot.ready then (some slot.message, ⟨t.replies.erase seq⟩) else (none, t)

def eraseWait (t : PendingReplyTable) (seq : UInt32) : PendingReplyTable := ⟨t.replies.erase seq⟩

/-- Only a slot that a wait has made takes a reply, and only the first one. -/
def storeReply (t : PendingReplyTable) (seq : UInt32) (msg : Message) : PendingReplyTable :=
  match t.replies[seq]? with
  | none => t
  | some slot =>
    if slot.ready then t else ⟨t.replies.insert seq { slot with ready := true, message := msg }⟩

/-- Whether the message is a reply some wait is for; further replies to it are swallowed. -/
def consumeReplyIfWaiting (t : PendingReplyTable) (seq : UInt32) (msg : Message) :
    Bool × PendingReplyTable :=
  if (t.pendingReply seq).isSome then (true, t)
  else if t.isWaiting seq then (true, t.storeReply seq msg)
  else (false, t)

end PendingReplyTable

/-! ### The state -/

/-- The control plane leads to the ServiceManager, the data plane to services. -/
inductive Plane where
  | control
  | data
deriving DecidableEq, Repr

/-- `RpcRuntime`, as far as a wait reads and writes it. -/
structure RpcRuntime where
  inWaitForReply : Bool
  waitDeadlineMs : Int
  dataReplies : PendingReplyTable

/-- A call of `waitForReply` that is inside `poll_once`, with what its guard restores in the end. -/
structure WaitFrame where
  plane : Plane
  seq : UInt32
  timeoutMs : UInt32
  startedAt : Int
  prevInWait : Bool
  prevDeadline : Int
  watchesConnection : Bool
deriving DecidableEq, Repr

inductive WaitResult where
  | ok (reply : Message)
  | error (code : ErrorCode)
deriving DecidableEq, Repr

/-- What a reader of a run wants to know of it, the last entry first. A call is recorded with the reply
    it finds in its slot, a poll with the clock reading its argument was computed from. -/
inductive WaitEntry where
  | called (plane : Plane) (seq : UInt32) (found : Option Message)
  | consumed (plane : Plane) (msg : Message)
  | cleared
  | polled (startedAt : Int) (timeoutMs : UInt32) (now : Int) (argument : Int)
  | returned (plane : Plane) (seq : UInt32) (result : WaitResult)
deriving DecidableEq, Repr

structure ReplyWaits where
  rpc : RpcRuntime
  controlReplies : PendingReplyTable
  frames : List WaitFrame
  readings : Nat
  history : List WaitEntry

namespace ReplyWaits

def init : ReplyWaits := ⟨⟨false, 0, .init⟩, .init, [], 0, []⟩

/-- The slots of a plane. -/
def table (s : ReplyWaits) : Plane → PendingReplyTable
  | .control => s.controlReplies
  | .data => s.rpc.dataReplies

def setTable (s : ReplyWaits) (plane : Plane) (table : PendingReplyTable) : ReplyWaits :=
  match plane with
  | .control => { s with controlReplies := table }
  | .data => { s with rpc := { s.rpc with dataReplies := table } }

/-- The slot of a sequence number on a plane. -/
def slot? (s : ReplyWaits) (plane : Plane) (seq : UInt32) : Option ReplySlot :=
  (s.table plane).replies[seq]?

def record (s : ReplyWaits) (entry : WaitEntry) : ReplyWaits :=
  { s with history := entry :: s.history }

/-! ### Incoming messages -/

open ServiceManager in
/-- The types of which `onSMMessage` takes a message for the answer to a request. -/
def controlReplyTypes : List UInt16 :=
  [MessageType.lookupReply, MessageType.listServicesReply, MessageType.listInstancesReply,
    MessageType.queryInterfacesReply, MessageType.queryPublishedTopicsReply,
    MessageType.subscribeServiceWatchReply, MessageType.registerReply, MessageType.unregisterReply,
    MessageType.publishTopicReply, MessageType.subscribeTopicReply, MessageType.runtimeHelloReply,
    MessageType.runtimeListReply, MessageType.diagSetLogLevelReply, MessageType.diagWatchStartReply,
    MessageType.diagWatchStopReply]

/-- Whether a message of a type can be the reply a wait on the plane is for. -/
def isReplyType : Plane → UInt16 → Bool
  | .control, type => type ∈ controlReplyTypes
  | .data, type => type = DataPlane.msgInvokeReply

/-- `onSMMessage` and `onDirectMessage` up to the point where the message is no reply. What their
    handlers run from there on shows in later events. -/
def onMessage (s : ReplyWaits) (plane : Plane) (msg : Message) : ReplyWaits :=
  if isReplyType plane msg.header.type then
    match (s.table plane).consumeReplyIfWaiting msg.getSequence msg with
    | (true, table) => (s.setTable plane table).record (.consumed plane msg)
    | (false, _) => s
  else s

/-- `reconnectServiceManager` clears the slots of the control plane, and only those. -/
def clearReplies (s : ReplyWaits) : ReplyWaits :=
  (s.setTable .control s.controlReplies.clear).record .cleared

/-! ### The wait loop -/

section
variable (clock : Nat → Int)

/-- A wait returns, and its guard restores what the wait around it had set. -/
def returnFrom (s : ReplyWaits) (frame : WaitFrame) (result : WaitResult) : ReplyWaits :=
  { s with
    rpc := { s.rpc with inWaitForReply := frame.prevInWait, waitDeadlineMs := frame.prevDeadline }
    }.record (.returned frame.plane frame.seq result)

/-- A wait returns without a reply. -/
def giveUp (s : ReplyWaits) (frame : WaitFrame) (code : ErrorCode) : ReplyWaits :=
  (s.setTable frame.plane ((s.table frame.plane).eraseWait frame.seq)).returnFrom frame (.error code)

/-- From the condition of the loop to its poll, or to the end of the wait. The time is read twice: for
    the deadline, and again for the argument of the poll. -/
def waitLoop (s : ReplyWaits) (frame : WaitFrame) : ReplyWaits :=
  match (s.table frame.plane).pendingReply frame.seq with
  | some _ =>
    match (s.table frame.plane).takeReply frame.seq with
    | (some reply, table) => (s.setTable frame.plane table).returnFrom frame (.ok reply)
    | (none, table) =>
      (s.setTable frame.plane table).returnFrom frame (.error .errConnectionClosed)
  | none =>
    let now := clock s.readings
    let s := { s with readings := s.readings + 1 }
    if s.rpc.waitDeadlineMs - now ≤ 0 then s.giveUp frame .errTimeout
    else if (s.table frame.plane).isFailed frame.seq then s.giveUp frame .errConnectionClosed
    else
      let now := clock s.readings
      let remaining := s.rpc.waitDeadlineMs - now
      { s with readings := s.readings + 1, frames := frame :: s.frames }.record
        (.polled frame.startedAt frame.timeoutMs now (narrowToInt remaining))

/-- The frame of a wait that is called now. -/
def frameFor (s : ReplyWaits) (plane : Plane) (seq timeoutMs : UInt32) (watchesConnection : Bool) :
    WaitFrame :=
  ⟨plane, seq, timeoutMs, clock s.readings, s.rpc.inWaitForReply, s.rpc.waitDeadlineMs,
    watchesConnection⟩

/-- The state in which the loop of a wait starts: the deadline is set and the slot is there. -/
def enterWait (s : ReplyWaits) (frame : WaitFrame) : ReplyWaits :=
  let deadline := frame.startedAt + frame.timeoutMs.toNat
  let s := { s with
    rpc := { s.rpc with inWaitForReply := true, waitDeadlineMs := deadline }
    readings := s.readings + 1 }
  (s.setTable frame.plane ((s.table frame.plane).beginWait frame.seq)).record
    (.called frame.plane frame.seq ((s.table frame.plane).pendingReply frame.seq))

def waitForReply (s : ReplyWaits) (plane : Plane) (seq timeoutMs : UInt32)
    (watchesConnection : Bool) : ReplyWaits :=
  let frame := s.frameFor clock plane seq timeoutMs watchesConnection
  (s.enterWait frame).waitLoop clock frame

/-- The poll of the innermost wait returns. A wait that watches its connection ends when that is gone
    and no reply has come. -/
def pollReturned (s : ReplyWaits) (alive : Bool) : ReplyWaits :=
  match s.frames with
  | [] => s
  | frame :: frames =>
    let s := { s with frames }
    if ((s.table frame.plane).pendingReply frame.seq).isNone && frame.watchesConnection && !alive then
      s.giveUp frame .errConnectionClosed
    else s.waitLoop clock frame

end

end ReplyWaits

/-- Everything that can happen to the waits of a runtime. -/
inductive WaitEvent where
  | call (plane : Plane) (seq timeoutMs : UInt32) (watchesConnection : Bool)
  | message (plane : Plane) (msg : Message)
  | clearReplies
  | pollReturned (alive : Bool)

def ReplyWaits.step (clock : Nat → Int) (s : ReplyWaits) : WaitEvent → ReplyWaits
  | .call plane seq timeoutMs watchesConnection =>
    s.waitForReply clock plane seq timeoutMs watchesConnection
  | .message plane msg => s.onMessage plane msg
  | .clearReplies => s.clearReplies
  | .pollReturned alive => s.pollReturned clock alive

variable {α : Type} (reserves : Nat → Bool)

/-- A list behind its count, and the caller's list afterwards. The count is held against the bytes that
are left before memory for that many elements is asked for, which `reserves` grants or not. -/
def decodeCountedVector (readOne : View α) (minElementBytes : Nat) (out : List α) (view : Bytes) :
    Option ErrorCode × List α :=
  match tryReadUint32 view with
  | none => (some .errDeserialize, out)
  | some (count, rest) =>
    let minElementBytes := if minElementBytes = 0 then 1 else minElementBytes
    if count.toNat > rest.length / minElementBytes then (some .errDeserialize, out)
    else if reserves count.toNat = false then (some .errOutOfMemory, out)
    else
      match readTimes readOne count.toNat rest with
      | none => (some .errDeserialize, out)
      | some (decoded, _) => (none, decoded)

def listServicesInternal (out : List ServiceInfo) :
    Except ErrorCode (UInt16 × Bytes) → Option ErrorCode × List ServiceInfo
  | .error code => (some code, out)
  | .ok (_, payload) => decodeCountedVector reserves deserializeServiceInfo 28 out payload

def listServiceInstancesInternal (out : List ServiceInfo) :
    Except ErrorCode (UInt16 × Bytes) → Option ErrorCode × List ServiceInfo
  | .error code => (some code, out)
  | .ok (type, payload) =>
    if type ≠ ServiceManager.MessageType.listInstancesReply then (some .errProtocolError, out)
    else
      match tryReadBool payload with
      | none => (some .errDeserialize, out)
      | some (false, _) => (some .errServiceNotFound, [])
      | some (true, rest) => decodeCountedVector reserves deserializeServiceInfo 28 out rest

def queryInterfacesInternal (out : List InterfaceInfo) :
    Except ErrorCode (UInt16 × Bytes) → Option ErrorCode × List InterfaceInfo
  | .error code => (some code, out)
  | .ok (_, payload) =>
    match tryReadBool payload with
    | none => (some .errDeserialize, out)
    | some (false, _) => (some .errServiceNotFound, out)
    | some (true, rest) => decodeCountedVector reserves deserializeInterfaceInfo 10 out rest

end OmniBinder
