/-
Module: OmniBinder.Core.Message
Purpose: The message frame of `src/core/message.cpp`, a sixteen-byte header followed by the payload, and
  `readNextMessage` of `src/core/message_reader.cpp` over both kinds of transport.
Trusted boundary: human-reviewed spec
Main exports: MessageHeader, tryExtractFrame, readNextMessage
-/
import OmniBinder.Core.Buffer

namespace OmniBinder

def omniMagic : UInt32 := 0x42494E44

def omniVersion : UInt16 := 1

structure MessageHeader where
  magic : UInt32
  version : UInt16
  type : UInt16
  sequence : UInt32
  length : UInt32
deriving DecidableEq, Repr

structure Message where
  header : MessageHeader
  payload : Buffer
deriving DecidableEq, Repr

namespace Message

/-- The default constructor. -/
def init : Message := ⟨⟨omniMagic, omniVersion, 0, 0, 0⟩, Buffer.init⟩

/-- The constructor from a type code and a sequence number. -/
def ofType (type : UInt16) (seq : UInt32) : Message :=
  ⟨⟨omniMagic, omniVersion, type, seq, 0⟩, Buffer.init⟩

def getSequence (m : Message) : UInt32 := m.header.sequence

/-- The header with its length field updated to the payload size. -/
def sizedHeader (m : Message) : MessageHeader :=
  { m.header with length := UInt32.ofNat m.payload.size }

/-- One write after another, stopping at the first that fails. -/
def thenWrite (result : Bool × Buffer) (write : Buffer → Bool × Buffer) : Bool × Buffer :=
  match result with
  | (true, b) => write b
  | (false, b) => (false, b)

/-- The five header fields, in the order `serialize` writes them. -/
def writeHeader (alloc : Allocator) (h : MessageHeader) (output : Buffer) : Bool × Buffer :=
  thenWrite (thenWrite (thenWrite (thenWrite (output.writeUint32 alloc h.magic)
    (·.writeUint16 alloc h.version))
    (·.writeUint16 alloc h.type))
    (·.writeUint32 alloc h.sequence))
    (·.writeUint32 alloc h.length)

def serialize (alloc : Allocator) (m : Message) (output : Buffer) : Bool × Buffer :=
  if m.payload.size > uint32Max then (false, output)
  else if m.payload.size > maxMessageSize - messageHeaderSize then (false, output)
  else if m.sizedHeader.length > 0 then
    thenWrite (writeHeader alloc m.sizedHeader output) (·.writeRaw alloc m.payload.bytes)
  else writeHeader alloc m.sizedHeader output

/-- The sixteen header bytes as `putUint16LE` and `putUint32LE` lay them out. -/
def headerBytes (h : MessageHeader) : Bytes :=
  LittleEndian.encode 4 h.magic.toNat ++ LittleEndian.encode 2 h.version.toNat ++
    LittleEndian.encode 2 h.type.toNat ++ LittleEndian.encode 4 h.sequence.toNat ++
    LittleEndian.encode 4 h.length.toNat

/-- The header fields, each stored at its offset in the block. -/
def putHeader (h : MessageHeader) (base : Buffer) : Buffer :=
  ((((base.store 0 (LittleEndian.encode 4 h.magic.toNat)).store 4
    (LittleEndian.encode 2 h.version.toNat)).store 6
    (LittleEndian.encode 2 h.type.toNat)).store 8
    (LittleEndian.encode 4 h.sequence.toNat)).store 12 (LittleEndian.encode 4 h.length.toNat)

/-- Serialize inside the payload buffer: the payload moves up by the header size and the header is
    stored in front of it. -/
def serializeInPlace (alloc : Allocator) (m : Message) : Bool × Message :=
  let len := m.payload.size
  if len > uint32Max then (false, m)
  else if len > maxMessageSize - messageHeaderSize then (false, m)
  else
    let reserved := m.payload.reserve alloc (messageHeaderSize + len)
    if reserved.capacity < messageHeaderSize + len then (false, { m with payload := reserved })
    else
      -- `std::memmove` stores what the block held before, also where source and target overlap
      let moved := reserved.store messageHeaderSize (reserved.data.take len)
      let stored := putHeader m.sizedHeader moved
      (true, { m with payload := stored.setWritePosition alloc (messageHeaderSize + len) })

def parseHeader (data : Bytes) : Option MessageHeader :=
  if data.length < messageHeaderSize then none
  else
    some
      { magic := UInt32.ofNat (LittleEndian.decode (data.take 4))
        version := UInt16.ofNat (LittleEndian.decode ((data.drop 4).take 2))
        type := UInt16.ofNat (LittleEndian.decode ((data.drop 6).take 2))
        sequence := UInt32.ofNat (LittleEndian.decode ((data.drop 8).take 4))
        length := UInt32.ofNat (LittleEndian.decode ((data.drop 12).take 4)) }

def validateHeader (h : MessageHeader) : Bool :=
  if h.magic ≠ omniMagic then false
  else if h.length.toNat > maxMessageSize - messageHeaderSize then false
  else true

end Message

/-- The outcome of looking for a frame at the front of a byte stream. -/
inductive FrameStatus where
  | needMore
  | corrupt
  | complete (header : MessageHeader) (frameSize : Nat)
deriving DecidableEq, Repr

def tryExtractFrame (data : Bytes) : FrameStatus :=
  if data.length < messageHeaderSize then .needMore
  else
    match Message.parseHeader data with
    | none => .needMore
    | some header =>
      if !Message.validateHeader header then .corrupt
      else
        let total := messageHeaderSize + header.length.toNat
        if data.length < total then .needMore else .complete header total

/-- How a socket answers one `recv`: nothing available, a chunk of the pending bytes, or an error. -/
inductive RecvStep where
  | wouldBlock
  | deliver (n : Nat)
  | error
deriving DecidableEq, Repr

/-- What `recv` hands back: a negative code, zero, or the received bytes. -/
inductive RecvResult where
  | error
  | wouldBlock
  | data (chunk : Bytes)
deriving DecidableEq, Repr

/-- One answer of the socket. A chunk is a non-empty prefix of the pending bytes, no longer than the
    space offered; with nothing pending the call would block. -/
def RecvStep.answer (step : RecvStep) (pending : Bytes) (space : Nat) : RecvResult × Bytes :=
  match step with
  | .wouldBlock => (.wouldBlock, pending)
  | .error => (.error, pending)
  | .deliver n =>
    let count := min (max n 1) (min space pending.length)
    if count = 0 then (.wouldBlock, pending)
    else (.data (pending.take count), pending.drop count)

/-- The receiving end of a byte-stream connection. -/
structure Socket where
  pending : Bytes
  plan : List RecvStep
deriving DecidableEq, Repr

/-- What one call of `readNextMessage` leaves behind: its return value, the out parameter and the
    persistent receive buffer. -/
structure ReadResult where
  ret : Int
  out : Message
  recvBuffer : Buffer
deriving DecidableEq, Repr

/-- Copy a payload into the out parameter. `none` when the copy could not be allocated. -/
def deliverPayload (alloc : Allocator) (out : Message) (header : MessageHeader) (content : Bytes) :
    Bool × Message :=
  if header.length > 0 then
    let payload := out.payload.clear.assign alloc content
    (payload.writeOk, ⟨header, payload⟩)
  else (true, ⟨header, out.payload.clear⟩)

/-- The `Complete` branch of the byte-stream loop: hand out the frame at the read cursor and compact
    the buffer behind it. -/
def takeFrame (alloc : Allocator) (recvBuffer : Buffer) (out : Message) (header : MessageHeader)
    (frameSize : Nat) : ReadResult :=
  match deliverPayload alloc out header
      ((recvBuffer.unread.drop messageHeaderSize).take header.length.toNat) with
  | (false, out) => ⟨-1, out, recvBuffer⟩
  | (true, out) =>
    match recvBuffer.trySetReadPosition (recvBuffer.readPos + frameSize) with
    | (false, recvBuffer) => ⟨-1, out, recvBuffer⟩
    | (true, recvBuffer) => ⟨1, out, recvBuffer.compact⟩

/-- The status the byte-stream loop computes at its head. -/
def bufferedFrame (recvBuffer : Buffer) : FrameStatus :=
  if recvBuffer.size - recvBuffer.readPos = 0 then .needMore else tryExtractFrame recvBuffer.unread

/-- The byte-stream loop. Each turn that does not return consumes one answer of the socket, so the
    recursion is on the plan. A socket whose plan is used up would block. -/
def readStream (alloc : Allocator) :
    List RecvStep → Bytes → Buffer → Message → ReadResult × Socket
  | plan, pending, recvBuffer, out =>
    match bufferedFrame recvBuffer with
    | .complete header frameSize =>
      (takeFrame alloc recvBuffer out header frameSize, ⟨pending, plan⟩)
    | .corrupt => (⟨-1, out, recvBuffer⟩, ⟨pending, plan⟩)
    | .needMore =>
      match recvBuffer.writableTail alloc with
      | (none, recvBuffer) => (⟨-1, out, recvBuffer⟩, ⟨pending, plan⟩)
      | (some space, recvBuffer) =>
        match plan with
        | [] => (⟨0, out, recvBuffer⟩, ⟨pending, []⟩)
        | step :: plan =>
          match step.answer pending space with
          | (.error, pending) => (⟨-1, out, recvBuffer⟩, ⟨pending, plan⟩)
          | (.wouldBlock, pending) => (⟨0, out, recvBuffer⟩, ⟨pending, plan⟩)
          | (.data chunk, pending) =>
            let filled := recvBuffer.store recvBuffer.writePos chunk
            if filled.remaining + chunk.length > maxMessageSize then
              (⟨-1, out, filled⟩, ⟨pending, plan⟩)
            else
              match filled.commitWritten chunk.length with
              | (false, filled) => (⟨-1, out, filled⟩, ⟨pending, plan⟩)
              | (true, filled) => readStream alloc plan pending filled out

/-- A framed connection as `readNextMessage` sees it: the answer of `peekFrameSize`, and what `recv`
    yields for an output buffer of the given size. -/
structure FramedConnection where
  peekFrameSize : Int × Nat
  recv : Nat → RecvResult

def readFramed (alloc : Allocator) (transport : FramedConnection) (recvBuffer : Buffer)
    (out : Message) : ReadResult :=
  if transport.peekFrameSize.1 ≤ 0 then ⟨transport.peekFrameSize.1, out, recvBuffer⟩
  else
    let frameSize := transport.peekFrameSize.2
    if frameSize < messageHeaderSize ∨ frameSize > maxMessageSize then ⟨-1, out, recvBuffer⟩
    else
      let sized := recvBuffer.resize alloc frameSize
      if sized.capacity < frameSize then ⟨-1, out, sized⟩
      else
        match transport.recv frameSize with
        | .error => ⟨-1, out, sized⟩
        | .wouldBlock => ⟨0, out, sized⟩
        | .data chunk =>
          let filled := sized.store 0 chunk
          if chunk.length ≠ frameSize then ⟨-1, out, filled⟩
          else
            match Message.parseHeader (filled.data.take frameSize) with
            | none => ⟨-1, out, filled⟩
            | some header =>
              if !Message.validateHeader header
                  || header.length.toNat != frameSize - messageHeaderSize then
                ⟨-1, out, filled⟩
              else
                match deliverPayload alloc out header
                    ((filled.data.drop messageHeaderSize).take header.length.toNat) with
                | (false, out) => ⟨-1, out, filled⟩
                | (true, out) => ⟨1, out, filled⟩

/-- A connection as the reader takes it: framed (shared memory) or a byte stream. -/
inductive Transport where
  | framed (connection : FramedConnection)
  | stream (socket : Socket)

def readNextMessage (alloc : Allocator) (transport : Transport) (recvBuffer : Buffer)
    (out : Message) : ReadResult × Transport :=
  match transport with
  | .framed connection => (readFramed alloc connection recvBuffer out, .framed connection)
  | .stream socket =>
    let (result, socket) := readStream alloc socket.plan socket.pending recvBuffer out
    (result, .stream socket)

end OmniBinder
