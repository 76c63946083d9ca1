/-
Module: OmniBinder.Transport.ShmRing
Purpose: `src/transport/shm_ring.cpp`: the single-producer single-consumer frame ring, one call at a
  time and on a ring that the other process changes meanwhile, the layout of one client's mapping, a
  packed control block and two rings, and the two threads on a ring access by access, each with a FIFO
  store buffer.
Trusted boundary: human-reviewed spec
Main exports: ShmRing, shmRingRecvSeen, shmValidateMappedLayout, RingThreads.LostWakeUp
-/
import OmniBinder.Core.Buffer
import OmniBinder.Idl.IdlHash

namespace OmniBinder

def shmMinRingCapacity : Nat := 64

/-- `ShmRingHeader` together with the data area behind it. -/
structure ShmRing where
  writePos : UInt32
  readPos : UInt32
  capacity : UInt32
  reserved : UInt32
  data : Bytes
deriving DecidableEq, Repr

def shmAdvancePos (pos delta capacity : UInt32) : UInt32 :=
  if delta ≥ capacity - pos then delta - (capacity - pos) else pos + delta

def shmRingAvailableRead (ring : ShmRing) (cap : UInt32) : UInt32 :=
  if cap.toNat < shmMinRingCapacity ∨ ring.capacity ≠ cap then 0
  else if ring.writePos ≥ cap ∨ ring.readPos ≥ cap then 0
  else if ring.writePos ≥ ring.readPos then ring.writePos - ring.readPos
  else cap - ring.readPos + ring.writePos

def shmRingAvailableWrite (ring : ShmRing) (capacity : UInt32) : UInt32 :=
  if capacity.toNat < shmMinRingCapacity ∨ ring.capacity ≠ capacity ∨ ring.writePos ≥ capacity ∨
      ring.readPos ≥ capacity then 0
  else capacity - 1 - shmRingAvailableRead ring capacity

/-- Copy `content` into the data area at `pos`, in two pieces when it runs past the end. -/
def shmCopyIn (data : Bytes) (pos capacity : UInt32) (content : Bytes) : Bytes :=
  Circular.store (capacity - pos).toNat pos.toNat content data

/-- Copy `n` bytes out of the data area from `pos`, in two pieces when they run past the end. -/
def shmCopyOut (data : Bytes) (pos capacity : UInt32) (n : UInt32) : Bytes :=
  Circular.fetch (capacity - pos).toNat pos.toNat n.toNat data

/-- The bytes of `frame` are the `length` bytes the caller's pointer designates. -/
def shmRingWriteFrame (ring : ShmRing) (frame : Bytes) (length capacity : UInt32) :
    UInt32 × ShmRing :=
  let total := 4 + length
  if shmRingAvailableWrite ring capacity < total then (0, ring)
  else
    let prefixed := shmCopyIn ring.data ring.writePos capacity (LittleEndian.encode 4 length.toNat)
    let pos := shmAdvancePos ring.writePos 4 capacity
    let stored := shmCopyIn prefixed pos capacity (frame.take length.toNat)
    (total, { ring with data := stored, writePos := shmAdvancePos pos length capacity })

/-- The number of bytes read, the bytes, and the ring with its read cursor advanced. -/
def shmRingRead (ring : ShmRing) (length capacity : UInt32) : UInt32 × Bytes × ShmRing :=
  if ring.capacity ≠ capacity ∨ ring.readPos ≥ capacity then (0, [], ring)
  else
    let avail := shmRingAvailableRead ring capacity
    let toRead := if length < avail then length else avail
    if toRead = 0 then (0, [], ring)
    else
      (toRead, shmCopyOut ring.data ring.readPos capacity toRead,
        { ring with readPos := shmAdvancePos ring.readPos toRead capacity })

/-- What `shmRingSendFrame` does: its return value, the ring, and whether it signalled the eventfd. -/
structure ShmSendResult where
  written : UInt32
  ring : ShmRing
  notified : Bool
deriving DecidableEq, Repr

def shmRingSendFrame (ring : ShmRing) (capacity : UInt32) (frame : Bytes) (length : UInt32)
    (notifyFd : Int) : ShmSendResult :=
  if ring.capacity ≠ capacity ∨ ring.writePos ≥ capacity then ⟨0, ring, false⟩
  else
    let total := 4 + length
    let wasEmpty := shmRingAvailableRead ring capacity == 0
    let writeStart := ring.writePos
    match shmRingWriteFrame ring frame length capacity with
    | (written, ring') =>
      if written ≠ total then ⟨0, ring', false⟩
      else
        -- with no consumer in between, the re-check of the read cursor sees the old value
        let wasEmpty := wasEmpty || ring'.readPos == writeStart
        ⟨written, ring', wasEmpty && decide (notifyFd ≥ 0)⟩

/-- The four length bytes at the read cursor, read one by one with wrapping indices. -/
def shmLengthPrefix (ring : ShmRing) (trustedCapacity : UInt32) : UInt32 :=
  UInt32.ofNat (LittleEndian.decode ((List.range 4).map fun i =>
    ring.data.getD ((ring.readPos + UInt32.ofNat i) % trustedCapacity).toNat 0))

/-- The return code and the length reported through the out parameter. -/
def shmInspectFrame (ring : ShmRing) (trustedCapacity : UInt32) : Int × Nat :=
  if trustedCapacity.toNat < shmMinRingCapacity ∨ ring.capacity ≠ trustedCapacity then (-1, 0)
  else if ring.readPos ≥ trustedCapacity ∨ ring.writePos ≥ trustedCapacity then (-1, 0)
  else
    let avail :=
      if ring.writePos ≥ ring.readPos then ring.writePos - ring.readPos
      else trustedCapacity - ring.readPos + ring.writePos
    if avail < 4 then (0, 0)
    else
      let msgLen := shmLengthPrefix ring trustedCapacity
      let maxFrame := trustedCapacity - 1 - 4
      if msgLen = 0 ∨ msgLen.toNat > maxMessageSize ∨ msgLen > maxFrame then (-1, 0)
      else if 4 + msgLen.toNat > avail.toNat then (0, 0)
      else (1, msgLen.toNat)

/-- What `shmRingRecvFrame` does: its return value, the bytes stored in the caller's buffer, the
    reported length and the ring. -/
structure ShmRecvResult where
  ret : Int
  out : Bytes
  outLength : Nat
  ring : ShmRing
deriving DecidableEq, Repr

def shmRingRecvFrame (ring : ShmRing) (capacity : UInt32) (outSize : Nat) : ShmRecvResult :=
  match shmInspectFrame ring capacity with
  | (inspect, frameSize) =>
    if inspect ≤ 0 then ⟨inspect, [], 0, ring⟩
    else if outSize < frameSize then ⟨-1, [], 0, ring⟩
    else
      let msgLen := UInt32.ofNat frameSize
      let r := ring.readPos
      let advanced := { ring with readPos := shmAdvancePos r 4 capacity }
      match shmRingRead advanced msgLen capacity with
      | (readBytes, out, ring') =>
        -- a short read rolls the consumption of the length prefix back
        if readBytes ≠ msgLen then ⟨-1, out, 0, { ring' with readPos := r }⟩
        else ⟨msgLen.toNat, out, frameSize, ring'⟩

/-- A frame the ring may be asked to carry. -/
def FrameSized (frame : Bytes) : Prop := 1 ≤ frame.length ∧ frame.length ≤ maxMessageSize

instance (frame : Bytes) : Decidable (FrameSized frame) := by
  unfold FrameSized
  infer_instance

/-! ### Sending within a timeout -/

section
variable (seen : Nat → ShmRing) (clock : Nat → Int) (capacity : UInt32) (frame : Bytes)
  (length : UInt32) (notifyFd : Int) (timeoutMs : UInt32)

/-- The turns of the loop: the code that is returned, and the turn that returns it. -/
def sendTurns (turn : Nat) : Nat → Option (Int × Nat)
  | 0 => none
  | turns + 1 =>
    if (shmRingSendFrame (seen turn) capacity frame length notifyFd).written = 4 + length then
      some (0, turn)
    else if timeoutMs = 0 ∨ clock turn - clock 0 ≥ timeoutMs.toNat then some (-2, turn)
    else sendTurns (turn + 1) turns

/-- Each turn finds its own ring, and `seen 0` is the one of the checks before the loop. `none` stands
    for a call that is still in the loop after so many turns. -/
def shmRingSendFrameWithinTimeout (turns : Nat) : Option (Int × Nat) :=
  if (seen 0).capacity ≠ capacity ∨ (seen 0).writePos ≥ capacity ∨ (seen 0).readPos ≥ capacity then
    some (-1, 0)
  else if capacity = 0 ∨ 4 + length > capacity - 1 then some (-1, 0)
  else sendTurns seen clock capacity frame length notifyFd timeoutMs 1 turns

end

/-! ### Receiving from a ring that changes -/

/-- The places of the length prefix. -/
def shmPrefixReads (readPos capacity : UInt32) : List Nat :=
  (List.range 4).map fun i => ((readPos + UInt32.ofNat i) % capacity).toNat

theorem shmLengthPrefix_eq (ring : ShmRing) (capacity : UInt32) : shmLengthPrefix ring capacity =
    UInt32.ofNat (LittleEndian.decode ((shmPrefixReads ring.readPos capacity).map fun index =>
      ring.data.getD index 0)) := by
  rw [shmLengthPrefix, shmPrefixReads, List.map_map]
  rfl

/-- The places that `shmInspectFrame` reads. -/
def shmInspectReads (ring : ShmRing) (capacity : UInt32) : List Nat :=
  if shmRingAvailableRead ring capacity < 4 then [] else shmPrefixReads ring.readPos capacity

/-- The places that the two pieces of a copy out of the ring read. -/
def shmCopyReads (pos capacity n : UInt32) : List Nat :=
  let first := if n < capacity - pos then n else capacity - pos
  List.range' pos.toNat first.toNat ++ List.range (n - first).toNat

/-- What a receive finds in the ring: at the inspection, when the read checks the capacity, when it
    computes the available bytes, and when it copies. No look loads a word twice, and the read cursor is
    the consumer's own. -/
structure RingLooks where
  inspect : ShmRing
  check : ShmRing
  available : ShmRing
  copy : ShmRing

/-- The number of bytes read, the bytes, the read cursor, and the places read. -/
def shmRingReadSeen (looks : RingLooks) (readPos length capacity : UInt32) :
    UInt32 × Bytes × UInt32 × List Nat :=
  if looks.check.capacity ≠ capacity ∨ readPos ≥ capacity then (0, [], readPos, [])
  else
    let avail := shmRingAvailableRead { looks.available with readPos := readPos } capacity
    let toRead := if length < avail then length else avail
    if toRead = 0 then (0, [], readPos, [])
    else
      (toRead, shmCopyOut looks.copy.data readPos capacity toRead,
        shmAdvancePos readPos toRead capacity, shmCopyReads readPos capacity toRead)

structure ShmRecvSeen where
  ret : Int
  out : Bytes
  outLength : Nat
  readPos : UInt32
  reads : List Nat

def shmRingRecvSeen (looks : RingLooks) (readPos capacity : UInt32) (outSize : Nat) : ShmRecvSeen :=
  let found := { looks.inspect with readPos := readPos }
  let reads := shmInspectReads found capacity
  match shmInspectFrame found capacity with
  | (inspect, frameSize) =>
    if inspect ≤ 0 then ⟨inspect, [], 0, readPos, reads⟩
    else if outSize < frameSize then ⟨-1, [], 0, readPos, reads⟩
    else
      let msgLen := UInt32.ofNat frameSize
      match shmRingReadSeen looks (shmAdvancePos readPos 4 capacity) msgLen capacity with
      | (readBytes, out, pos, copied) =>
        if readBytes ≠ msgLen then ⟨-1, out, 0, readPos, reads ++ copied⟩
        else ⟨msgLen.toNat, out, frameSize, pos, reads ++ copied⟩

/-- On a ring that nobody changes the receive is the one in one piece. -/
theorem shmRingRecvFrame_eq_seen (ring : ShmRing) (capacity : UInt32) (outSize : Nat) :
    shmRingRecvFrame ring capacity outSize =
      let result := shmRingRecvSeen ⟨ring, ring, ring, ring⟩ ring.readPos capacity outSize
      ⟨result.ret, result.out, result.outLength, { ring with readPos := result.readPos }⟩ := by
  simp only [shmRingRecvFrame, shmRingRecvSeen, shmRingRead, shmRingReadSeen]
  split_ifs <;> rfl

def shmMagic : UInt32 := 0x53484D42

/-- `sizeof(ShmControlBlock)`: the block is packed, five fields and seven reserved words. -/
def shmControlBlockSize : Nat := 48

/-- `sizeof(ShmRingHeader)`. -/
def shmRingHeaderSize : Nat := 16

/-- `alignof(ShmRingHeader)`. -/
def shmRingHeaderAlign : Nat := 4

def shmAlignUp (value alignment : Nat) : Nat := (value + alignment - 1) / alignment * alignment

def shmRequestRingOffset : Nat := shmAlignUp shmControlBlockSize shmRingHeaderAlign

def shmRequestDataOffset : Nat := shmRequestRingOffset + shmRingHeaderSize

def shmResponseRingOffset (reqRingCapacity : Nat) : Nat :=
  shmAlignUp (shmRequestDataOffset + reqRingCapacity) shmRingHeaderAlign

def shmResponseDataOffset (reqRingCapacity : Nat) : Nat :=
  shmResponseRingOffset reqRingCapacity + shmRingHeaderSize

def shmIsValidRingCapacity (capacity : Nat) : Bool :=
  capacity ≥ shmMinRingCapacity && capacity ≤ uint32Max

def shmNormalizeRingCapacity (capacity : Nat) : Nat :=
  if capacity = 0 then shmMinRingCapacity
  else if capacity < shmMinRingCapacity then shmMinRingCapacity
  else capacity

def calculateShmSize (reqRingCapacity respRingCapacity : Nat) : Nat :=
  let req := shmNormalizeRingCapacity reqRingCapacity
  let resp := shmNormalizeRingCapacity respRingCapacity
  if !shmIsValidRingCapacity req || !shmIsValidRingCapacity resp then 0
  else if shmResponseDataOffset req > sizeMax - resp then 0
  else shmResponseDataOffset req + resp

/-! ### Words of the mapping -/

/-- The little-endian word at an offset of the mapping. -/
def loadWord (mapping : Bytes) (offset : Nat) : UInt32 :=
  UInt32.ofNat (LittleEndian.decode ((mapping.drop offset).take 4))

/-- Store a word at an offset of the mapping. -/
def storeWord (offset : Nat) (value : UInt32) (mapping : Bytes) : Bytes :=
  splice offset (LittleEndian.encode 4 value.toNat) mapping

/-- The ring whose header lies at `offset` of the mapping, with its data area behind the header. -/
def shmRingAt (mapping : Bytes) (offset : Nat) (capacity : Nat) : ShmRing :=
  { writePos := loadWord mapping offset
    readPos := loadWord mapping (offset + 4)
    capacity := loadWord mapping (offset + 8)
    reserved := loadWord mapping (offset + 12)
    data := (mapping.drop (offset + shmRingHeaderSize)).take capacity }

/-- Clear the cursors of a ring header and set its capacity. -/
def shmInitRing (offset : Nat) (capacity : UInt32) (mapping : Bytes) : Bytes :=
  storeWord (offset + 12) 0 (storeWord (offset + 8) capacity
    (storeWord (offset + 4) 0 (storeWord offset 0 mapping)))

/-- The mapping must be at least as large as `calculateShmSize` says; an empty one is left alone. -/
def shmInitLayout (mapping : Bytes) (reqCapacity respCapacity : UInt32) : Bytes :=
  if mapping.length = 0 then mapping
  else
    let cleared := List.replicate mapping.length (0 : UInt8)
    let control := storeWord 12 respCapacity (storeWord 8 reqCapacity
      (storeWord 4 1 (storeWord 0 shmMagic cleared)))
    let rings := shmInitRing (shmResponseRingOffset reqCapacity.toNat) respCapacity
      (shmInitRing shmRequestRingOffset reqCapacity control)
    -- the ready flag is stored last, behind a barrier
    storeWord 16 1 rings

/-- The two rings of a mapping. -/
inductive RingSide where
  | request
  | response
deriving DecidableEq, Repr

/-- `shmRequestRingFromBase`, `shmResponseRingFromBase` and the data areas behind them. -/
def RingSide.ring (side : RingSide) (mapping : Bytes) (reqCapacity respCapacity : UInt32) : ShmRing :=
  match side with
  | .request => shmRingAt mapping shmRequestRingOffset reqCapacity.toNat
  | .response =>
    shmRingAt mapping (shmResponseRingOffset reqCapacity.toNat) respCapacity.toNat

/-- The capacity a side of the mapping was set up with. -/
def RingSide.capacity (side : RingSide) (reqCapacity respCapacity : UInt32) : UInt32 :=
  match side with
  | .request => reqCapacity
  | .response => respCapacity

/-- The capacities the validator reports, if it accepts the mapping. -/
def shmValidateMappedLayout (mapping : Bytes) : Option (UInt32 × UInt32) :=
  if mapping.length < shmControlBlockSize then none
  else if loadWord mapping 0 ≠ shmMagic ∨ loadWord mapping 4 ≠ 1 ∨ loadWord mapping 16 ≠ 1 then none
  else
    let reqCapacity := loadWord mapping 8
    let respCapacity := loadWord mapping 12
    let layoutSize := calculateShmSize reqCapacity.toNat respCapacity.toNat
    if layoutSize = 0 ∨ layoutSize > mapping.length then none
    else
      let reqRing := RingSide.request.ring mapping reqCapacity respCapacity
      let respRing := RingSide.response.ring mapping reqCapacity respCapacity
      if reqRing.capacity ≠ reqCapacity ∨ respRing.capacity ≠ respCapacity ∨
          reqRing.readPos ≥ reqRing.capacity ∨ reqRing.writePos ≥ reqRing.capacity ∨
          respRing.readPos ≥ respRing.capacity ∨ respRing.writePos ≥ respRing.capacity then none
      else some (reqCapacity, respCapacity)

/-! ### Names -/

/-- The hash of a string as it is printed. `fnv1a_32` reads its argument as a C string. -/
def fnv1aText (text : Bytes) : Bytes :=
  (Nat.toDigits 16 (Idl.fnv1aHash (text.takeWhile (· ≠ 0))).toNat).map fun c => UInt8.ofNat c.toNat

/-- What the name of a service is hashed from. -/
def shmHashInput (serviceName instanceId hostId : Bytes) : Bytes :=
  serviceName ++ (if hostId ≠ [] then 0x1f :: hostId else []) ++
    if instanceId ≠ [] then 0x1f :: instanceId else []

def generateShmName (hashText : Bytes → Bytes) (serviceName instanceId hostId : Bytes) : Bytes :=
  ascii "/binder_" ++ serviceName.take 48 ++ ascii "_" ++
    hashText (shmHashInput serviceName instanceId hostId)

def shmHandshakePath (hashText : Bytes → Bytes) (shmName : Bytes) : Bytes :=
  ascii "/tmp/omni_" ++ hashText shmName ++ ascii ".sock"

/-- A frame the connections hand to the ring: `send` and `sendAll` refuse an empty one and one above
    `MAX_MESSAGE_SIZE`. -/
abbrev RingFrame := { frame : Bytes // FrameSized frame }

/-- A store to the shared memory of a ring. A copy may wrap, as in `shmRingWriteFrame`. -/
inductive RingStore where
  | copyIn (pos : UInt32) (content : Bytes)
  | writePos (pos : UInt32)
  | readPos (pos : UInt32)
deriving DecidableEq, Repr

def RingStore.apply (c : UInt32) (ring : ShmRing) : RingStore → ShmRing
  | .copyIn pos content => { ring with data := shmCopyIn ring.data pos c content }
  | .writePos pos => { ring with writePos := pos }
  | .readPos pos => { ring with readPos := pos }

/-- Where the producer is in `shmRingSendFrame`: outside, about to test the free space, about to load
    the read cursor again, or about to signal. -/
inductive ProducerPc where
  | idle
  | writeFrame (frame : RingFrame) (wasEmpty : Bool)
  | recheck (writeStart : UInt32) (wasEmpty : Bool)
  | notify (writeStart : UInt32)
deriving DecidableEq

/-- Where the consumer is: waiting for the eventfd, about to peek, about to receive a frame whose size
    it has seen, past the length prefix of that frame, or giving the connection up. -/
inductive ConsumerPc where
  | idle
  | peek
  | recv (frameSize : Nat)
  | read (msgLen r : UInt32)
  | failed
deriving DecidableEq, Repr

structure RingThreads where
  ring : ShmRing
  signalled : Bool
  producerStores : List RingStore
  consumerStores : List RingStore
  producer : ProducerPc
  consumer : ConsumerPc
  sends : Nat
deriving DecidableEq

/-- What can happen next. A buffered store reaches memory with `flushProducer` and `flushConsumer`. -/
inductive RingAction where
  | send (frame : RingFrame)
  | producer
  | consume
  | consumer
  | flushProducer
  | flushConsumer
deriving DecidableEq

namespace RingThreads

variable (c : UInt32)

/-- Nothing sent yet, the consumer waiting. -/
def start (ring : ShmRing) : RingThreads := ⟨ring, false, [], [], .idle, .idle, 0⟩

/-- The memory as the producer sees it: with its own stores on top. -/
def producerView (st : RingThreads) : ShmRing :=
  st.producerStores.foldl (RingStore.apply c) st.ring

/-- The memory as the consumer sees it. -/
def consumerView (st : RingThreads) : ShmRing :=
  st.consumerStores.foldl (RingStore.apply c) st.ring

/-- The entry of `shmRingSendFrame`, up to the first look at the read cursor. -/
def beginSend (st : RingThreads) (frame : RingFrame) : RingThreads :=
  let ring := st.producerView c
  if ring.capacity ≠ c ∨ ring.writePos ≥ c then st
  else { st with producer := .writeFrame frame (shmRingAvailableRead ring c == 0) }

/-- The stores of `shmRingWriteFrame`: the length prefix, the frame, and the new write cursor. -/
def frameStores (writeStart : UInt32) (frame : Bytes) : List RingStore :=
  let length := UInt32.ofNat frame.length
  let pos := shmAdvancePos writeStart 4 c
  [.copyIn writeStart (LittleEndian.encode 4 length.toNat), .copyIn pos frame,
    .writePos (shmAdvancePos pos length c)]

/-- One step of a send in progress. Without room the call returns zero. -/
def stepProducer (st : RingThreads) : Option RingThreads :=
  let ring := st.producerView c
  match st.producer with
  | .idle => none
  | .writeFrame frame wasEmpty =>
    if shmRingAvailableWrite ring c < 4 + UInt32.ofNat frame.val.length then
      some { st with producer := .idle }
    else
      some { st with
        producerStores := st.producerStores ++ frameStores c ring.writePos frame.val
        producer := .recheck ring.writePos wasEmpty }
  | .recheck writeStart wasEmpty =>
    if wasEmpty || ring.readPos == writeStart then
      some { st with producer := .notify writeStart }
    else some { st with producer := .idle, sends := st.sends + 1 }
  | .notify _ =>
    match st.producerStores with
    | [] => some { st with signalled := true, producer := .idle, sends := st.sends + 1 }
    | _ :: _ => none

/-- `eventFdConsume`: the event loop calls it when the eventfd is readable, and a client also before
    each peek, where nothing to consume is no error. -/
def stepConsume (st : RingThreads) : Option RingThreads :=
  match st.consumerStores with
  | _ :: _ => none
  | [] =>
    match st.consumer with
    | .idle => if st.signalled then some { st with signalled := false, consumer := .peek } else none
    | .peek => some { st with signalled := false }
    | _ => none

/-- One step of the consumer's loop. A short read rolls the read cursor back. -/
def stepConsumer (st : RingThreads) : Option RingThreads :=
  let ring := st.consumerView c
  match st.consumer with
  | .idle => none
  | .peek =>
    match shmInspectFrame ring c with
    | (inspect, frameSize) =>
      if inspect = 0 then some { st with consumer := .idle }
      else if inspect < 0 then some { st with consumer := .failed }
      else some { st with consumer := .recv frameSize }
  | .recv outSize =>
    match shmInspectFrame ring c with
    | (inspect, frameSize) =>
      if inspect = 0 then some { st with consumer := .idle }
      else if inspect < 0 ∨ outSize < frameSize then some { st with consumer := .failed }
      else
        some { st with
          consumerStores := st.consumerStores ++ [.readPos (shmAdvancePos ring.readPos 4 c)]
          consumer := .read (UInt32.ofNat frameSize) ring.readPos }
  | .read msgLen r =>
    match shmRingRead ring msgLen c with
    | (readBytes, _, ring') =>
      if readBytes = msgLen then
        some { st with
          consumerStores := st.consumerStores ++ [.readPos ring'.readPos]
          consumer := .peek }
      else
        some { st with
          consumerStores := st.consumerStores ++ [.readPos ring'.readPos, .readPos r]
          consumer := .failed }
  | .failed => none

/-- The next state, or nothing when the action is not possible. -/
def step (st : RingThreads) : RingAction → Option RingThreads
  | .send frame =>
    match st.producer with
    | .idle => some (st.beginSend c frame)
    | _ => none
  | .producer => st.stepProducer c
  | .consume => st.stepConsume
  | .consumer => st.stepConsumer c
  | .flushProducer =>
    match st.producerStores with
    | [] => none
    | store :: stores => some { st with ring := store.apply c st.ring, producerStores := stores }
  | .flushConsumer =>
    match st.consumerStores with
    | [] => none
    | store :: stores => some { st with ring := store.apply c st.ring, consumerStores := stores }

/-- An interleaving of the two threads and their store buffers. -/
def run (st : RingThreads) : List RingAction → Option RingThreads
  | [] => some st
  | action :: actions =>
    match st.step c action with
    | none => none
    | some st' => st'.run actions

/-- The producer has returned from a successful send, the ring holds a complete frame, and the consumer
    waits for an eventfd that nobody has signalled. -/
def LostWakeUp (st : RingThreads) : Prop :=
  0 < st.sends ∧ st.producer = .idle ∧ (shmInspectFrame st.ring c).1 = 1 ∧ st.consumer = .idle ∧
    st.signalled = false

instance (st : RingThreads) : Decidable (st.LostWakeUp c) := inferInstanceAs (Decidable (_ ∧ _))

end RingThreads

end OmniBinder
