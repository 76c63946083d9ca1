/-
Module: OmniBinder.Proofs.FrameStream
Purpose: The frame format, and `readNextMessage` on a byte stream as a faithful decoder: whatever chunks
  the socket cuts the stream of serialized messages into, repeated calls hand out those messages in order
  and never report a broken stream. Nothing but a serialized message is taken for one.
Trusted boundary: none
Main exports: Message.wire, readNextMessage_delivers_stream, tryExtractFrame_complete_iff
-/
import OmniBinder.Proofs.BufferSpec

namespace OmniBinder

open List Buffer LittleEndian Buffer Message ReadResult

variable {m : Message} {alloc : Allocator} {output : Buffer}

namespace Message

/-- The bytes of a message on the wire. -/
def wire (m : Message) : Bytes := headerBytes m.sizedHeader ++ m.payload.bytes

/-- The payload leaves room for the header in a message of maximal size. -/
def Fits (m : Message) : Prop := m.payload.size ≤ maxMessageSize - messageHeaderSize

@[simp]
theorem length_headerBytes (h : MessageHeader) : (headerBytes h).length = messageHeaderSize := by
  simp [headerBytes, messageHeaderSize]

theorem length_wire (m : Message) : m.wire.length = messageHeaderSize + m.payload.size := by
  simp [wire, size]

theorem toNat_length_sizedHeader (hfits : m.Fits) : m.sizedHeader.length.toNat = m.payload.size := by
  simp only [Fits, maxMessageSize, messageHeaderSize] at hfits
  simp only [sizedHeader, UInt32.toNat_ofNat']
  omega

theorem puts_writeHeader (alloc : Allocator) (h : MessageHeader) :
    Puts alloc (writeHeader alloc h) True (headerBytes h) := by
  have hfixed (content : Bytes) := puts_writeFixed alloc content
  exact (((((hfixed _).andThen (hfixed _)).andThen (hfixed _)).andThen (hfixed _)).andThen
    (hfixed _)).congr (fun _ => rfl) (by simp)

/-- Serialization that succeeds appends the wire form, and the payload was within the limit. -/
theorem puts_serialize (alloc : Allocator) (m : Message) :
    Puts alloc (m.serialize alloc) m.Fits m.wire := by
  by_cases hfits : m.Fits
  · refine ((puts_writeHeader alloc m.sizedHeader).andThen
      (puts_writeRaw alloc m.payload.bytes)).congr (fun output => ?_)
      (iff_of_true hfits ⟨trivial, trivial⟩)
    have hmax : ¬ m.payload.size > uint32Max := Nat.not_lt.mpr (hfits.trans (by decide))
    rw [serialize, if_neg hmax, if_neg (Nat.not_lt.mpr hfits)]
    split_ifs with hlength
    · rfl
    -- the length field is zero only for an empty payload, because the payload fits
    have hnil : m.payload.bytes = [] := by
      rw [gt_iff_lt, UInt32.lt_iff_toNat_lt, toNat_length_sizedHeader hfits, size] at hlength
      exact length_eq_zero_iff.mp (by simpa using hlength)
    rw [hnil]
    rcases writeHeader alloc m.sizedHeader output with ⟨_ | _, b⟩ <;> rfl
  · refine (Puts.refused (fun _ => rfl) hfits).congr (fun output => ?_) Iff.rfl
    rw [serialize]
    split_ifs with hmax hlimit
    · rfl
    · rfl
    · exact absurd (Nat.le_of_not_lt hlimit) hfits
    · exact absurd (Nat.le_of_not_lt hlimit) hfits

/-- With memory to spare, serialization into a fresh buffer accepts exactly the messages whose payload
    leaves room for the header. -/
theorem serialize_accepts_iff (m : Message) :
    (m.serialize .succeeds Buffer.init).1 = true ↔ m.Fits := by
  constructor
  · intro haccepted
    exact ((puts_serialize .succeeds m).stores (Prod.ext haccepted rfl)).1
  · intro hfits
    have hroom : Buffer.init.writePos + m.wire.length ≤ sizeMax / 2 := by
      have hsize : m.payload.size ≤ 16 * 1024 * 1024 - 16 := hfits
      rw [length_wire, show Buffer.init.writePos = 0 from rfl, messageHeaderSize, sizeMax]
      omega
    obtain ⟨b, hwrite, -⟩ := (puts_serialize .succeeds m).succeeds rfl hfits rfl hroom
    rw [hwrite]

/-- The fields lie side by side. -/
theorem data_putHeader (h : MessageHeader) (base : Buffer) :
    (putHeader h base).data = splice 0 (headerBytes h) base.data := by
  simp only [putHeader, Buffer.store]
  rw [splice_behind (by simp) (Nat.zero_le _), splice_behind (by simp) (Nat.zero_le _),
    splice_behind (by simp) (Nat.zero_le _), splice_behind (by simp) (Nat.zero_le _)]
  rfl

/-- Serializing in place leaves the same frame in the payload buffer. -/
theorem serializeInPlace_ok {m' : Message} (h : m.serializeInPlace alloc = (true, m')) :
    m.Fits ∧ m'.payload.bytes = m.wire := by
  by_cases hmax : m.payload.size > uint32Max
  · simp [serializeInPlace, hmax] at h
  by_cases hlimit : m.payload.size > maxMessageSize - messageHeaderSize
  · simp [serializeInPlace, hlimit] at h
  obtain ⟨hwrite, hread, hbytes, _⟩ :=
    reserve_spec alloc m.payload (messageHeaderSize + m.payload.size)
  generalize hreserved : m.payload.reserve alloc (messageHeaderSize + m.payload.size) = reserved
    at hwrite hread hbytes
  by_cases hroom : reserved.capacity < messageHeaderSize + m.payload.size
  · simp [serializeInPlace, hmax, hlimit, hreserved, hroom] at h
  refine ⟨Nat.le_of_not_lt hlimit, ?_⟩
  simp only [serializeInPlace, hmax, hlimit, hreserved, hroom, if_false, Prod.mk.injEq,
    true_and] at h
  have hlen : m.wire.length = messageHeaderSize + m.payload.size := m.length_wire
  set stored := putHeader m.sizedHeader
    (reserved.store messageHeaderSize (reserved.data.take m.payload.size)) with hstored
  have hdata : stored.data = splice 0 m.wire reserved.data := by
    have hmoved : reserved.data.take m.payload.size = m.payload.bytes := by
      rw [← hbytes, Buffer.bytes, hwrite]
      rfl
    have hinside : messageHeaderSize ≤ reserved.data.length :=
      le_trans (Nat.le_add_right _ _) (Nat.le_of_not_lt hroom)
    rw [hstored, data_putHeader, Buffer.store, hmoved]
    exact splice_front (by simp) hinside
  -- the new write position lies inside the block and not behind the read cursor
  have hbehind : stored.readPos ≤ messageHeaderSize + m.payload.size :=
    le_trans (le_trans hread.le m.payload.readPos_le) (Nat.le_add_left _ _)
  have hinside : messageHeaderSize + m.payload.size ≤ stored.capacity := by
    rw [capacity, hdata]
    exact le_trans (Nat.le_of_not_lt hroom) (length_le_length_splice 0 _ reserved.data)
  rw [← h, bytes_setWritePosition alloc hbehind hinside, hdata, ← hlen]
  exact take_splice_zero _ _

/-- With memory to spare, serialization in place accepts exactly the messages whose payload leaves room
    for the header. -/
theorem serializeInPlace_accepts_iff (m : Message) :
    (m.serializeInPlace .succeeds).1 = true ↔ m.Fits := by
  constructor
  · intro haccepted
    exact (serializeInPlace_ok (Prod.ext haccepted rfl)).1
  intro hfits
  have hsize : m.payload.size ≤ 16 * 1024 * 1024 - 16 := hfits
  have hmax : ¬ m.payload.size > uint32Max := by
    simp only [uint32Max]
    omega
  have hhalf : messageHeaderSize + m.payload.size ≤ sizeMax / 2 := by
    simp only [messageHeaderSize, sizeMax]
    omega
  have hroom := (reserve_succeeds m.payload hhalf).2
  rw [serializeInPlace, if_neg hmax, if_neg (Nat.not_lt.mpr hfits)]
  exact congrArg Prod.fst (if_neg (Nat.not_lt.mpr hroom))

/-- Serializing in place is serializing into a fresh buffer: both succeed on the same messages, and
    they leave the same bytes. -/
theorem serializeInPlace_refines_serialize (m : Message) :
    (m.serializeInPlace .succeeds).1 = (m.serialize .succeeds Buffer.init).1 ∧
      ((m.serialize .succeeds Buffer.init).1 = true → (m.serializeInPlace .succeeds).2.payload.bytes =
          (m.serialize .succeeds Buffer.init).2.bytes) := by
  have hsame : (m.serializeInPlace .succeeds).1 = (m.serialize .succeeds Buffer.init).1 :=
    Bool.eq_iff_iff.mpr (m.serializeInPlace_accepts_iff.trans m.serialize_accepts_iff.symm)
  refine ⟨hsame, fun haccepted => ?_⟩
  rw [(serializeInPlace_ok (Prod.ext (hsame.trans haccepted) rfl)).2,
    ((puts_serialize .succeeds m).stores (Prod.ext haccepted rfl)).2]
  rfl

/-! ### Parsing -/

/-- The header of a frame is read back whatever follows it. -/
theorem parseHeader_headerBytes (h : MessageHeader) (rest : Bytes) :
    parseHeader (headerBytes h ++ rest) = some h := by
  have hlen : ¬ (headerBytes h ++ rest).length < messageHeaderSize := by simp
  rw [parseHeader, if_neg hlen]
  simp [headerBytes, drop_append, drop_eq_nil_of_le, decode_encode]

/-- Only the first sixteen bytes matter to the header. -/
theorem parseHeader_append {data : Bytes} (h : messageHeaderSize ≤ data.length) (rest : Bytes) :
    parseHeader (data ++ rest) = parseHeader data := by
  simp only [messageHeaderSize] at h
  have htake : ∀ n k, n + k ≤ 16 → ((data ++ rest).drop n).take k = (data.drop n).take k := by
    intro n k hnk
    rw [drop_append_of_le_length (by omega),
      take_append_of_le_length (by simp; omega)]
  have hdata : ¬ data.length < messageHeaderSize := by simp only [messageHeaderSize]; omega
  have happ : ¬ (data ++ rest).length < messageHeaderSize := by
    simp only [messageHeaderSize, length_append]
    omega
  have htake0 := htake 0 4 (by omega)
  simp only [drop_zero] at htake0
  rw [parseHeader, parseHeader, if_neg hdata, if_neg happ, htake0, htake 4 2 (by omega),
    htake 6 2 (by omega), htake 8 4 (by omega), htake 12 4 (by omega)]

theorem validateHeader_sizedHeader (hmagic : m.header.magic = omniMagic) (hfits : m.Fits) :
    validateHeader m.sizedHeader = true := by
  have hlength := toNat_length_sizedHeader hfits
  have hle : ¬ m.sizedHeader.length.toNat > maxMessageSize - messageHeaderSize := by
    rw [hlength]
    exact Nat.not_lt.mpr hfits
  rw [validateHeader, if_neg (by simp [sizedHeader, hmagic]), if_neg hle]

end Message

/-- A stream that starts with a whole frame yields that frame. -/
theorem tryExtractFrame_wire (hmagic : m.header.magic = omniMagic) (hfits : m.Fits) (rest : Bytes) :
    tryExtractFrame (m.wire ++ rest) = .complete m.sizedHeader m.wire.length := by
  have hheader : parseHeader (m.wire ++ rest) = some m.sizedHeader := by
    rw [wire, append_assoc]
    exact parseHeader_headerBytes _ _
  have hlong : ¬ (m.wire ++ rest).length < messageHeaderSize := by
    rw [length_append, length_wire]
    omega
  have htotal : ¬ (m.wire ++ rest).length < messageHeaderSize + m.sizedHeader.length.toNat := by
    rw [length_append, length_wire, toNat_length_sizedHeader hfits]
    omega
  rw [tryExtractFrame, if_neg hlong, hheader]
  simp only [validateHeader_sizedHeader hmagic hfits, Bool.not_true, Bool.false_eq_true,
    if_false]
  rw [if_neg htotal, toNat_length_sizedHeader hfits, length_wire]

/-- A proper prefix of a frame asks for more bytes. -/
theorem tryExtractFrame_short (hmagic : m.header.magic = omniMagic) (hfits : m.Fits)
    {data rest more : Bytes} (hsplit : data ++ rest = m.wire ++ more)
    (hshort : data.length < m.wire.length) : tryExtractFrame data = .needMore := by
  by_cases hlen : data.length < messageHeaderSize
  · simp [tryExtractFrame, hlen]
  have hheader : parseHeader data = some m.sizedHeader := by
    rw [← parseHeader_append (Nat.le_of_not_lt hlen) rest, hsplit, wire,
      append_assoc]
    exact parseHeader_headerBytes _ _
  have htotal : data.length < messageHeaderSize + m.sizedHeader.length.toNat := by
    rw [toNat_length_sizedHeader hfits, ← length_wire]
    exact hshort
  simp [tryExtractFrame, hlen, hheader, validateHeader_sizedHeader hmagic hfits, htotal]

/-- A caller of `readNextMessage` on one byte-stream connection: the results of the given number of
    successive calls, and the socket after them. The receive buffer and the out parameter persist. -/
def readCalls (alloc : Allocator) :
    Nat → Socket → Buffer → Message → List ReadResult × Socket
  | 0, socket, _, _ => ([], socket)
  | calls + 1, socket, recvBuffer, out =>
    match readNextMessage alloc (.stream socket) recvBuffer out with
    | (result, .stream socket) =>
      let (results, socket) := readCalls alloc calls socket result.recvBuffer result.out
      (result :: results, socket)
    | (result, .framed _) => ([result], socket)

/-- The header and payload a result hands out, if it hands out a message. -/
def ReadResult.message? (result : ReadResult) : Option (MessageHeader × Bytes) :=
  if result.ret = 1 then some (result.out.header, result.out.payload.bytes) else none

/-- The messages handed out over a list of calls. -/
def delivered (results : List ReadResult) : List (MessageHeader × Bytes) :=
  results.filterMap ReadResult.message?

/-- What a receiver is to see of a message: its header with the length set, and its payload. -/
def Message.received (m : Message) : MessageHeader × Bytes := (m.sizedHeader, m.payload.bytes)

/-- A message a peer may have put on the stream. -/
def Message.Sendable (m : Message) : Prop := m.header.magic = omniMagic ∧ m.Fits

/-- The bytes of a list of messages on the stream. -/
def wires (ms : List Message) : Bytes := (ms.map Message.wire).flatten

@[simp]
theorem wires_cons (m : Message) (ms : List Message) : wires (m :: ms) = m.wire ++ wires ms := rfl

/-- The receive buffer between two turns of the loop. -/
structure Receiving (b : Buffer) : Prop where
  readPos_eq : b.readPos = 0
  clear : b.writeFailed = false
  ladder : b.capacity = 0 ∨ ∃ j ≤ 12, b.capacity = 4096 * 2 ^ j

theorem Receiving.init : Receiving Buffer.init := ⟨rfl, rfl, .inl rfl⟩

variable {b : Buffer}

theorem Receiving.unread_eq (h : Receiving b) : b.unread = b.bytes := by
  simp [unread, h.readPos_eq]

theorem Receiving.capacity_le (h : Receiving b) : b.capacity ≤ maxMessageSize := by
  rcases h.ladder with hzero | ⟨j, hj, hcap⟩
  · omega
  · have hpow : 2 ^ j ≤ 2 ^ 12 := Nat.pow_le_pow_right (by omega) hj
    simp only [maxMessageSize]
    omega

/-! ### One turn of the loop -/

/-- From a full block below the message limit the next capacity is one step up the ladder. -/
theorem Receiving.nextCapacity_spec (h : Receiving b) (hroom : b.capacity < maxMessageSize) :
    b.capacity + 1 ≤ b.nextCapacity ∧ ∃ j ≤ 12, b.nextCapacity = 4096 * 2 ^ j := by
  rcases h.ladder with hzero | ⟨j, hj, hcap⟩
  · refine ⟨?_, 0, by omega, ?_⟩ <;> simp [nextCapacity, hzero, defaultBufferSize]
  have hlt : j < 12 := by
    by_contra hge
    have htop : j = 12 := by omega
    subst htop
    simp only [maxMessageSize] at hroom
    omega
  have hpos : 0 < 2 ^ j := Nat.pow_pos (by omega)
  have heq : b.nextCapacity = b.capacity * 2 := by
    rw [nextCapacity, if_neg (by omega)]
  refine ⟨by omega, j + 1, by omega, ?_⟩
  rw [heq, hcap, pow_succ]
  omega

/-- Reserving one byte beyond a full block moves the content one step up the ladder. -/
theorem Receiving.reserve_full (h : Receiving b) (hroom : b.capacity < maxMessageSize) :
    b.reserve Allocator.succeeds (b.capacity + 1) = b.moveTo b.nextCapacity := by
  have hsmall : ¬ b.capacity > sizeMax / 2 := by
    simp only [maxMessageSize, sizeMax] at hroom ⊢
    omega
  have hnext := (h.nextCapacity_spec hroom).1
  have hdouble : doubleUntil (b.capacity + 1) 65 b.nextCapacity = some b.nextCapacity := by
    rw [doubleUntil, if_neg (by omega)]
  rw [reserve, if_pos (by omega), grow, if_neg hsmall, hdouble]
  simp [Allocator.succeeds]

/-- With a buffer that holds less than a maximal message the tail always offers room, and the block
    stays on the ladder. -/
theorem Receiving.writableTail_spec (h : Receiving b) (hroom : b.writePos < maxMessageSize) :
    ∃ b', b.writableTail Allocator.succeeds = (some (b'.capacity - b'.writePos), b') ∧
      Receiving b' ∧ b'.bytes = b.bytes ∧ 0 < b'.capacity - b'.writePos := by
  by_cases hfull : b.writePos = b.capacity
  · rw [hfull] at hroom
    obtain ⟨hnext, hstep⟩ := h.nextCapacity_spec hroom
    have hcap : (b.moveTo b.nextCapacity).capacity = b.nextCapacity := by
      rw [capacity_moveTo]
      omega
    have hclear : (b.moveTo b.nextCapacity).writeFailed = false := h.clear
    have hpos : (b.moveTo b.nextCapacity).writePos = b.writePos := rfl
    refine ⟨b.moveTo b.nextCapacity, ?_, ?_, bytes_moveTo b _, by omega⟩
    · simp [writableTail, h.clear, hfull, h.reserve_full hroom, hclear]
    · exact ⟨h.readPos_eq, h.clear, .inr (hcap.symm ▸ hstep)⟩
  · refine ⟨b, ?_, h, rfl, ?_⟩
    · simp [writableTail, h.clear, hfull]
    · have hle : b.writePos ≤ b.capacity := b.writePos_le
      omega

variable {ms : List Message}

/-- What the head of the loop finds: the next message whole, or less than one message. -/
theorem bufferedFrame_cases {pending : Bytes} (h : Receiving b) (hms : ∀ m ∈ ms, m.Sendable)
    (hstream : b.bytes ++ pending = wires ms) :
    (∃ m ms' rest, ms = m :: ms' ∧ b.bytes = m.wire ++ rest ∧ rest ++ pending = wires ms' ∧
        bufferedFrame b = .complete m.sizedHeader m.wire.length) ∨
      (bufferedFrame b = .needMore ∧ b.writePos < maxMessageSize ∧ (pending = [] → ms = [])) := by
  have hframe : bufferedFrame b =
      if b.bytes.length = 0 then .needMore else tryExtractFrame b.bytes := by
    simp [bufferedFrame, h.readPos_eq, h.unread_eq, size]
  cases ms with
  | nil =>
    right
    have hnil : b.bytes = [] := (append_eq_nil_iff.mp hstream).1
    have hzero : b.writePos = 0 := by rw [← length_bytes, hnil, length_nil]
    refine ⟨by simp [hframe, hnil], ?_, fun _ => rfl⟩
    simp [hzero, maxMessageSize]
  | cons m ms =>
    obtain ⟨hmagic, hfits⟩ := hms m (mem_cons_self)
    have hwire : m.wire.length ≤ maxMessageSize := by
      have hle := hfits
      simp only [Message.Fits, maxMessageSize, messageHeaderSize] at hle
      simp only [length_wire, maxMessageSize, messageHeaderSize]
      omega
    have hpos : 0 < m.wire.length := by
      simp [length_wire, messageHeaderSize]
    rw [wires_cons] at hstream
    by_cases hshort : b.bytes.length < m.wire.length
    · right
      refine ⟨?_, by simp only [length_bytes] at hshort; omega, ?_⟩
      · rw [hframe, tryExtractFrame_short hmagic hfits hstream hshort, ite_self]
      · intro hpending
        rw [hpending, append_nil] at hstream
        rw [hstream, length_append] at hshort
        omega
    · left
      have hfront : m.wire <+: b.bytes :=
        prefix_of_prefix_length_le ⟨wires ms, hstream.symm⟩ ⟨pending, rfl⟩
          (Nat.le_of_not_lt hshort)
      obtain ⟨rest, hrest⟩ := hfront
      refine ⟨m, ms, rest, rfl, hrest.symm, ?_, ?_⟩
      · rw [← hrest, append_assoc] at hstream
        exact append_cancel_left hstream
      · rw [hframe, if_neg (by omega), ← hrest]
        exact tryExtractFrame_wire hmagic hfits rest

/-- Copying a payload that fits into the out parameter succeeds and yields the message. -/
theorem deliverPayload_spec {m : Message} (hfits : m.Fits) (out : Message) :
    ∃ out', deliverPayload Allocator.succeeds out m.sizedHeader m.payload.bytes = (true, out') ∧
      (out'.header, out'.payload.bytes) = m.received := by
  have hlength := toNat_length_sizedHeader hfits
  by_cases hpos : m.sizedHeader.length > 0
  · have hmax : m.payload.bytes.length ≤ sizeMax / 2 := by
      have hle := hfits
      simp only [Message.Fits, size, maxMessageSize, messageHeaderSize] at hle
      simp only [length_bytes, sizeMax]
      omega
    have hclear := assign_clear out.payload.clear hmax
    refine ⟨⟨m.sizedHeader, out.payload.clear.assign Allocator.succeeds m.payload.bytes⟩, ?_, ?_⟩
    · simp [deliverPayload, hpos, writeOk, hclear]
    · simp [received, assign_ok hclear]
  · -- a zero length field means an empty payload
    have hzero : m.payload.bytes.length = 0 := by
      have hnot : ¬ 0 < m.sizedHeader.length.toNat :=
        fun h => hpos (UInt32.lt_iff_toNat_lt.mpr h)
      simp only [length_bytes]
      simp only [size] at hlength
      omega
    have hnil : m.payload.bytes = [] := length_eq_zero_iff.mp hzero
    refine ⟨⟨m.sizedHeader, out.payload.clear⟩, ?_, ?_⟩
    · simp [deliverPayload, hpos]
    · simp [received, hnil]

variable {rest : Bytes}

/-- Moving the read cursor past a prefix and compacting drops the prefix. -/
theorem Receiving.consume (h : Receiving b) {frame : Bytes} (hbytes : b.bytes = frame ++ rest) :
    ∃ b', b.trySetReadPosition (b.readPos + frame.length) = (true, b') ∧
      Receiving b'.compact ∧ b'.compact.bytes = rest := by
  have hle : b.readPos + frame.length ≤ b.writePos := by
    have hlen := congrArg List.length hbytes
    rw [length_bytes, length_append] at hlen
    rw [h.readPos_eq]
    omega
  refine ⟨{ b with readPos := b.readPos + frame.length, readPos_le := hle }, ?_, ?_, ?_⟩
  · rw [trySetReadPosition, dif_pos hle]
  · refine ⟨rfl, h.clear, ?_⟩
    rw [capacity_compact]
    exact h.ladder
  · rw [bytes_compact]
    change b.bytes.drop (b.readPos + frame.length) = rest
    rw [h.readPos_eq, Nat.zero_add, hbytes, drop_left]

/-- Handing out a buffered frame delivers its message and keeps the rest of the stream. -/
theorem takeFrame_spec {m : Message} (h : Receiving b) (hfits : m.Fits)
    (hbytes : b.bytes = m.wire ++ rest) (out : Message) :
    ∃ out' b', takeFrame Allocator.succeeds b out m.sizedHeader m.wire.length = ⟨1, out', b'⟩ ∧
      (out'.header, out'.payload.bytes) = m.received ∧ Receiving b' ∧ b'.bytes = rest := by
  have hcontent : (b.unread.drop messageHeaderSize).take m.sizedHeader.length.toNat
      = m.payload.bytes := by
    rw [h.unread_eq, hbytes, wire, toNat_length_sizedHeader hfits,
      append_assoc, ← length_headerBytes m.sizedHeader, drop_left]
    simp [size]
  obtain ⟨out', hdeliver, hreceived⟩ := deliverPayload_spec hfits out
  obtain ⟨b', hcursor, hready, hrest⟩ := h.consume hbytes
  refine ⟨out', b'.compact, ?_, hreceived, hready, hrest⟩
  rw [takeFrame, hcontent, hdeliver]
  simp only [hcursor]

/-! ### One call -/

/-- The answers a legal stream gives: chunks and would-block results. -/
def Unbroken (plan : List RecvStep) : Prop := RecvStep.error ∉ plan

/-- The receiver is at a point of the stream where `ms` are the messages still to be handed out. -/
structure Awaiting (ms : List Message) (recvBuffer : Buffer) (socket : Socket) : Prop where
  receiving : Receiving recvBuffer
  unbroken : Unbroken socket.plan
  stream : recvBuffer.bytes ++ socket.pending = wires ms

/-- What a call that starts with the given plan and pending bytes, and `ms` still to be handed out, may
    do: hand out the first of them, or report that nothing is ready. A call that reports nothing ready
    consumed an answer of the socket, if there was one, and left no complete message behind. -/
inductive CallOutcome (plan : List RecvStep) (pending : Bytes) :
    List Message → ReadResult → Socket → Prop where
  | handedOut {m ms out recvBuffer socket} :
      (out.header, out.payload.bytes) = m.received →
      Awaiting ms recvBuffer socket → socket.plan.length ≤ plan.length →
      (plan = [] → socket = ⟨pending, []⟩) →
      CallOutcome plan pending (m :: ms) ⟨1, out, recvBuffer⟩ socket
  | notReady {ms out recvBuffer socket} :
      Awaiting ms recvBuffer socket → (socket.pending = [] → ms = []) →
      (plan ≠ [] → socket.plan.length < plan.length) →
      (plan = [] → socket = ⟨pending, []⟩) →
      CallOutcome plan pending ms ⟨0, out, recvBuffer⟩ socket

/-- What the rest of a call may do is also what the call may do, one answer earlier. -/
theorem CallOutcome.afterAnswer {plan : List RecvStep} {result : ReadResult} {socket : Socket}
    (h : CallOutcome plan rest ms result socket) (step : RecvStep) (pending : Bytes) :
    CallOutcome (step :: plan) pending ms result socket := by
  cases h with
  | handedOut hreceived hawait hle _ =>
    exact .handedOut hreceived hawait (Nat.le_succ_of_le hle) nofun
  | notReady hawait hdrained hlt hsame =>
    refine .notReady hawait hdrained (fun _ => ?_) nofun
    by_cases hplan : plan = []
    · rw [hsame hplan]
      exact Nat.succ_pos _
    · exact Nat.lt_succ_of_lt (hlt hplan)

/-- One answer of the socket in the middle of a legal stream. -/
theorem RecvStep.answer_cases (step : RecvStep) (pending : Bytes) {space : Nat} (hspace : 0 < space)
    (hstep : step ≠ .error) : step.answer pending space = (.wouldBlock, pending) ∨
      ∃ chunk rest, step.answer pending space = (.data chunk, rest) ∧ pending = chunk ++ rest ∧
        chunk.length ≤ space := by
  cases step with
  | wouldBlock => exact .inl rfl
  | error => exact absurd rfl hstep
  | deliver n =>
    by_cases hzero : min (max n 1) (min space pending.length) = 0
    · left
      simp [RecvStep.answer, hzero]
    right
    refine ⟨pending.take (min (max n 1) (min space pending.length)),
      pending.drop (min (max n 1) (min space pending.length)), ?_, ?_, ?_⟩
    · simp only [RecvStep.answer, if_neg hzero]
    · exact (take_append_drop _ _).symm
    · rw [length_take]
      omega

/-- Storing and committing a received chunk keeps the invariant and appends the chunk. -/
theorem Receiving.commit (h : Receiving b) {chunk : Bytes}
    (hroom : chunk.length ≤ b.capacity - b.writePos) :
    ¬ (b.store b.writePos chunk).remaining + chunk.length > maxMessageSize ∧
      ∃ b', (b.store b.writePos chunk).commitWritten chunk.length = (true, b') ∧
        Receiving b' ∧ b'.bytes = b.bytes ++ chunk := by
  obtain ⟨hok, hbytes, hread, hclear, hcap⟩ := commitWritten_store h.clear hroom
  constructor
  · have hle := h.capacity_le
    have hwrite : b.writePos ≤ b.capacity := b.writePos_le
    simp only [Buffer.store, Buffer.remaining]
    omega
  · refine ⟨((b.store b.writePos chunk).commitWritten chunk.length).2, Prod.ext hok rfl, ?_, hbytes⟩
    exact ⟨hread.trans h.readPos_eq, hclear, hcap ▸ h.ladder⟩

/-- A whole frame in the buffer is handed out without a look at the socket. -/
theorem handedOut_buffered {plan : List RecvStep} {pending : Bytes} (hms : ∀ m' ∈ m :: ms, m'.Sendable)
    (hawait : Awaiting (m :: ms) b ⟨pending, plan⟩) (hbytes : b.bytes = m.wire ++ rest)
    (hrest : rest ++ pending = wires ms) (hframe : bufferedFrame b = .complete m.sizedHeader m.wire.length)
    (out : Message) :
    CallOutcome plan pending (m :: ms) (readStream Allocator.succeeds plan pending b out).1
      (readStream Allocator.succeeds plan pending b out).2 := by
  obtain ⟨out', b', htake, hreceived, hready, hcontent⟩ :=
    takeFrame_spec hawait.receiving (hms m mem_cons_self).2 hbytes out
  have hread : readStream Allocator.succeeds plan pending b out = (⟨1, out', b'⟩, ⟨pending, plan⟩) := by
    cases plan <;> simp only [readStream, hframe, htake]
  rw [hread]
  exact .handedOut hreceived ⟨hready, hawait.unbroken, hcontent ▸ hrest⟩ le_rfl fun hnil => by rw [hnil]

/-- One call of the byte-stream reader. The induction is on the socket's plan, which every turn of the
    loop that goes round consumes one answer of. -/
theorem readStream_spec (hms : ∀ m ∈ ms, m.Sendable) :
    ∀ (plan : List RecvStep) (pending : Bytes) (b : Buffer) (out : Message),
      Awaiting ms b ⟨pending, plan⟩ →
      CallOutcome plan pending ms (readStream Allocator.succeeds plan pending b out).1
        (readStream Allocator.succeeds plan pending b out).2 := by
  intro plan
  induction plan with
  | nil =>
    intro pending b out hawait
    rcases bufferedFrame_cases hawait.receiving hms hawait.stream with
      ⟨m, ms', rest, rfl, hbytes, hrest, hframe⟩ | ⟨hframe, hsmall, hdrained⟩
    · exact handedOut_buffered hms hawait hbytes hrest hframe out
    · obtain ⟨b', htail, hready, hcontent, _⟩ := hawait.receiving.writableTail_spec hsmall
      simp only [readStream, hframe, htail]
      exact .notReady ⟨hready, hawait.unbroken, hcontent ▸ hawait.stream⟩ hdrained
        (fun hne => absurd rfl hne) fun _ => rfl
  | cons step plan ih =>
    intro pending b out hawait
    have hstep : step ≠ .error := fun h => hawait.unbroken (h ▸ mem_cons_self)
    have hplan : Unbroken plan := fun h => hawait.unbroken (mem_cons_of_mem step h)
    rcases bufferedFrame_cases hawait.receiving hms hawait.stream with
      ⟨m, ms', rest, rfl, hbytes, hrest, hframe⟩ | ⟨hframe, hsmall, hdrained⟩
    · exact handedOut_buffered hms hawait hbytes hrest hframe out
    · obtain ⟨b', htail, hready, hcontent, hspace⟩ := hawait.receiving.writableTail_spec hsmall
      rw [readStream]
      simp only [hframe, htail]
      rcases step.answer_cases pending hspace hstep with hblock | ⟨chunk, rest, hdata, hsplit, hfit⟩
      · simp only [hblock]
        exact .notReady ⟨hready, hplan, hcontent ▸ hawait.stream⟩ hdrained
          (fun _ => Nat.lt_succ_self _) nofun
      · -- a chunk arrived: commit it and go round with the shorter plan
        obtain ⟨hlimit, b'', hcommit, hready', hbytes'⟩ := hready.commit hfit
        have hstream : b''.bytes ++ rest = wires ms := by
          rw [hbytes', hcontent, append_assoc, ← hsplit]
          exact hawait.stream
        have hnext := ih rest b'' out ⟨hready', hplan, hstream⟩
        simp only [hdata, if_neg hlimit, hcommit]
        exact hnext.afterAnswer step pending

/-! ### Repeated calls -/

theorem readCalls_succ (alloc : Allocator) (calls : Nat) (socket : Socket) (b : Buffer)
    (out : Message) :
    readCalls alloc (calls + 1) socket b out =
      let call := readStream alloc socket.plan socket.pending b out
      let later := readCalls alloc calls call.2 call.1.recvBuffer call.1.out
      (call.1 :: later.1, later.2) := rfl

/-- Any number of calls on a legal stream: every call returns `0` or `1`, the messages handed out are a
    prefix of those sent, a socket whose plan is used up hands over nothing more, and once the socket has
    handed over everything, as many calls as there are answers and messages hand out all of them. The
    induction is on the number of calls. -/
theorem readCalls_spec :
    ∀ (calls : Nat) {ms : List Message} {socket : Socket} {b : Buffer} (out : Message),
      (∀ m ∈ ms, m.Sendable) → Awaiting ms b socket →
      (∀ result ∈ (readCalls Allocator.succeeds calls socket b out).1,
          result.ret = 0 ∨ result.ret = 1) ∧
        delivered (readCalls Allocator.succeeds calls socket b out).1 <+: ms.map received ∧
        (socket.plan = [] →
          (readCalls Allocator.succeeds calls socket b out).2.pending = socket.pending) ∧
        (socket.plan.length + ms.length < calls →
          (readCalls Allocator.succeeds calls socket b out).2.pending = [] →
          delivered (readCalls Allocator.succeeds calls socket b out).1 = ms.map received) := by
  intro calls
  induction calls with
  | zero =>
    intro ms socket b out _ _
    exact ⟨by simp [readCalls], nil_prefix, fun _ => rfl, fun h => absurd h (Nat.not_lt_zero _)⟩
  | succ calls ih =>
    intro ms socket b out hms hawait
    have hcall := readStream_spec hms socket.plan socket.pending b out hawait
    rw [readCalls_succ]
    generalize readStream Allocator.succeeds socket.plan socket.pending b out = call at hcall ⊢
    rcases call with ⟨result, socket'⟩
    cases hcall with
    | @handedOut m ms out' b' _ hreceived hnext hle hsame =>
      obtain ⟨hret, hfront, hspent, hall⟩ :=
        ih out' (fun m hm => hms m (mem_cons_of_mem _ hm)) hnext
      refine ⟨forall_mem_cons.mpr ⟨.inr rfl, hret⟩, ?_, fun hplan => ?_, fun hcalls hpending => ?_⟩
      · simpa [delivered, message?, hreceived] using hfront
      · obtain rfl := hsame hplan
        exact hspent rfl
      · have hlater := hall (by simp only [length_cons] at hcalls; omega) hpending
        simpa [delivered, message?, hreceived] using hlater
    | @notReady _ out' b' _ hnext hdrained hlt hsame =>
      obtain ⟨hret, hfront, hspent, hall⟩ := ih out' hms hnext
      refine ⟨forall_mem_cons.mpr ⟨.inl rfl, hret⟩, ?_, fun hplan => ?_, fun hcalls hpending => ?_⟩
      · simpa [delivered, message?] using hfront
      · obtain rfl := hsame hplan
        exact hspent rfl
      · by_cases hplan : socket.plan = []
        · -- the plan is used up, so nothing arrives later: the stream was already drained
          obtain rfl := hsame hplan
          obtain rfl : ms = [] := hdrained ((hspent rfl).symm.trans hpending)
          simpa [delivered, message?] using hfront
        · have hlater := hall (by have := hlt hplan; omega) hpending
          simpa [delivered, message?] using hlater

/-- A heartbeat without payload followed by a reply of three bytes. -/
def twoMessages : List Message :=
  [Message.ofType 0x0005 7,
    { Message.ofType 0x0101 8 with payload := ⟨[1, 2, 3], 3, 0, false, by decide, by decide⟩ }]

theorem fits_of_mem_twoMessages : ∀ m ∈ twoMessages, m.Fits := by
  intro m hm
  rcases mem_pair.mp hm with rfl | rfl
  · exact Nat.zero_le _
  · change 3 ≤ maxMessageSize - messageHeaderSize
    decide

/-! ### What is accepted -/

/-- The bytes of a header that was read are the bytes it would be written as. -/
theorem headerBytes_of_parseHeader {data : Bytes} {header : MessageHeader}
    (h : parseHeader data = some header) :
    headerBytes header ++ data.drop messageHeaderSize = data := by
  rw [parseHeader] at h
  split_ifs at h with hshort
  have hlong : 16 ≤ data.length := Nat.le_of_not_lt hshort
  have hfield : ∀ n k, n + k ≤ 16 →
      encode k (decode ((data.drop n).take k)) = (data.drop n).take k := by
    intro n k hnk
    have hlen : ((data.drop n).take k).length = k := by
      rw [length_take, length_drop]
      omega
    simpa only [hlen] using encode_decode ((data.drop n).take k)
  have hfield0 := hfield 0 4 (by omega)
  have hword (n : Nat) : encode 2 (n % 2 ^ 16) = encode 2 n := encode_mod 2 n
  have hjoin (n k : Nat) : (data.drop n).take k ++ data.drop (n + k) = data.drop n := by
    rw [← drop_drop, take_append_drop]
  rw [drop_zero] at hfield0
  rw [← Option.some.inj h, headerBytes]
  simp only [encode_uint32, UInt16.toNat_ofNat', hword, hfield0, hfield 4 2 (by omega),
    hfield 6 2 (by omega), hfield 8 4 (by omega), hfield 12 4 (by omega), messageHeaderSize,
    append_assoc]
  rw [hjoin 12 4, hjoin 8 4, hjoin 6 2, hjoin 4 2, take_append_drop]

/-- A frame is found exactly if the bytes start with what `serialize` writes for some message with the
    magic number, and then the header and the size are those of that message. Nothing else is accepted,
    whatever a peer sends. -/
theorem tryExtractFrame_complete_iff (data : Bytes) (header : MessageHeader) (total : Nat) :
    tryExtractFrame data = .complete header total ↔
      ∃ m frame rest, m.header.magic = omniMagic ∧ serialize .succeeds m .init = (true, frame) ∧
        data = frame.bytes ++ rest ∧ header = m.sizedHeader ∧ total = frame.size := by
  have hwritten : ∀ {m frame}, serialize .succeeds m .init = (true, frame) →
      m.Fits ∧ frame.bytes = m.wire := by
    intro m frame hok
    simpa [Buffer.init, Buffer.bytes] using (puts_serialize _ _).stores hok
  constructor
  · intro h
    rw [tryExtractFrame] at h
    split_ifs at h with hshort
    cases hparse : parseHeader data with
    | none => simp [hparse] at h
    | some found =>
      simp only [hparse] at h
      split_ifs at h with hinvalid htotal
      obtain ⟨rfl, rfl⟩ := FrameStatus.complete.inj h
      have hvalid : found.magic = omniMagic ∧ found.length.toNat ≤ maxMessageSize - messageHeaderSize := by
        simpa [validateHeader] using hinvalid
      let content := (data.drop messageHeaderSize).take found.length.toNat
      have hlen : content.length = found.length.toNat := by
        simp only [content, length_take, length_drop]
        omega
      let m : Message := ⟨found, ⟨content, content.length, 0, false, Nat.zero_le _, le_rfl⟩⟩
      have hsized : m.sizedHeader = found := by
        simp [m, sizedHeader, size, hlen]
      have hok : m.serialize .succeeds .init = (true, (m.serialize .succeeds .init).2) :=
        Prod.ext ((serialize_accepts_iff m).mpr (hlen.trans_le hvalid.2)) rfl
      have hframe : (m.serialize .succeeds .init).2.bytes = headerBytes found ++ content := by
        rw [(hwritten hok).2, wire, hsized]
        simp [m, Buffer.bytes]
      refine ⟨m, _, (data.drop messageHeaderSize).drop found.length.toNat, hvalid.1, hok, ?_,
        hsized.symm, ?_⟩
      · rw [hframe, append_assoc, take_append_drop, headerBytes_of_parseHeader hparse]
      · rw [size, ← length_bytes, hframe, length_append, length_headerBytes, hlen]
  · rintro ⟨m, frame, rest, hmagic, hok, rfl, rfl, rfl⟩
    obtain ⟨hfits, hbytes⟩ := hwritten hok
    rw [size, ← length_bytes, hbytes]
    exact tryExtractFrame_wire hmagic hfits rest

end OmniBinder
