/-
Module: OmniBinder.Core.Buffer
Purpose: The numeric constants and error codes the modelled functions read, the serialization buffer of
  `src/core/buffer.cpp`, the shared read primitives of `src/core/buffer_read_utils.h`, and `BufferView`. A
  buffer is its allocated block with a write and a read cursor and the sticky failure flag; a view is a
  chain of typed reads that stops at the first failure.
Trusted boundary: human-reviewed spec
Main exports: Allocator, BufferRead.readString, View
-/
import Mathlib.Algebra.Order.Group.Nat
import Mathlib.Data.List.Basic
import OmniBinder.Lib.Bytes

namespace OmniBinder

/-- `std::numeric_limits<size_t>::max()` on the 64-bit targets the runtime is built for. -/
def sizeMax : Nat := 2 ^ 64 - 1

/-- `std::numeric_limits<uint32_t>::max()`. -/
def uint32Max : Nat := 2 ^ 32 - 1

def defaultBufferSize : Nat := 4096

def maxServiceNameLength : Nat := 256

def maxTopicNameLength : Nat := 256

def maxMessageSize : Nat := 16 * 1024 * 1024

def maxArrayElements : Nat := 1024 * 1024

def maxZeroWireArrayElements : Nat := 4096

def messageHeaderSize : Nat := 16

inductive ErrorCode where
  | errInvalidParam
  | errOutOfMemory
  | errTimeout
  | errConnectFailed
  | errConnectionClosed
  | errSendFailed
  | errProtocolError
  | errSmUnreachable
  | errServiceNotFound
  | errRegisterFailed
  | errIdlMismatch
  | errSerialize
  | errDeserialize
deriving DecidableEq, Repr

/-- Whether an allocation of the given number of bytes succeeds. -/
abbrev Allocator := Nat → Bool

/-- The assumption that memory never runs out. -/
def Allocator.succeeds : Allocator := fun _ => true

/-- `Buffer`: `data` is the whole allocated block, so its length is `capacity_`. The cursors of every
    buffer the class can build are ordered, which is what keeps `write_pos_ - read_pos_` from wrapping. -/
structure Buffer where
  data : Bytes
  writePos : Nat
  readPos : Nat
  writeFailed : Bool
  readPos_le : readPos ≤ writePos
  writePos_le : writePos ≤ data.length
deriving DecidableEq, Repr

namespace Buffer

/-- The default constructor: no block, both cursors at zero. -/
def init : Buffer := ⟨[], 0, 0, false, le_rfl, le_rfl⟩

def capacity (b : Buffer) : Nat := b.data.length

def size (b : Buffer) : Nat := b.writePos

def remaining (b : Buffer) : Nat := b.writePos - b.readPos

def hasRemaining (b : Buffer) : Bool := b.readPos < b.writePos

def writeOk (b : Buffer) : Bool := !b.writeFailed

/-- The bytes written so far. -/
def bytes (b : Buffer) : Bytes := b.data.take b.writePos

/-- The written bytes the read cursor has not passed. -/
def unread (b : Buffer) : Bytes := b.bytes.drop b.readPos

@[simp]
theorem length_bytes (b : Buffer) : b.bytes.length = b.writePos := by
  simp [bytes, b.writePos_le]

@[simp]
theorem length_unread (b : Buffer) : b.unread.length = b.remaining := by
  simp [unread, remaining]

/-! ### Growth -/

/-- The doubling loop of `grow`. The fuel covers the 64 doublings a `size_t` allows. -/
def doubleUntil (minCapacity : Nat) : Nat → Nat → Option Nat
  | 0, _ => none
  | fuel + 1, newCapacity =>
    if newCapacity < minCapacity then
      if newCapacity > sizeMax / 2 then none
      else doubleUntil minCapacity fuel (newCapacity * 2)
    else some newCapacity

theorem le_of_doubleUntil {minCapacity newCapacity : Nat} :
    ∀ {fuel start : Nat}, doubleUntil minCapacity fuel start = some newCapacity →
      minCapacity ≤ newCapacity
  | 0, _, h => by simp [doubleUntil] at h
  | fuel + 1, start, h => by
    unfold doubleUntil at h
    split_ifs at h with hlt
    · exact le_of_doubleUntil h
    · cases h
      omega

/-- The failure flag set, everything else kept. -/
def fail (b : Buffer) : Buffer := { b with writeFailed := true }

/-- The written prefix moved into a fresh block of the given size. -/
def moveTo (b : Buffer) (newCapacity : Nat) : Buffer :=
  { b with
    data := b.bytes ++ List.replicate (newCapacity - b.writePos) 0
    writePos_le := by simp }

/-- The block size `grow` tries first. -/
def nextCapacity (b : Buffer) : Nat :=
  if b.capacity = 0 then defaultBufferSize else b.capacity * 2

def grow (alloc : Allocator) (b : Buffer) (minCapacity : Nat) : Buffer :=
  if b.capacity > sizeMax / 2 then b.fail
  else
    match doubleUntil minCapacity 65 b.nextCapacity with
    | none => b.fail
    | some newCapacity => if alloc newCapacity then b.moveTo newCapacity else b.fail

def reserve (alloc : Allocator) (b : Buffer) (newCapacity : Nat) : Buffer :=
  if newCapacity > b.capacity then b.grow alloc newCapacity else b

/-- What a call of `grow` can do: fail in place, or move the written bytes to a block that is large
    enough. -/
theorem grow_cases (alloc : Allocator) (b : Buffer) (minCapacity : Nat) :
    b.grow alloc minCapacity = b.fail ∨ ∃ newCapacity, minCapacity ≤ newCapacity ∧
        b.grow alloc minCapacity = b.moveTo newCapacity := by
  unfold grow
  split_ifs with hbig
  · exact .inl rfl
  split
  · exact .inl rfl
  · next newCapacity hdouble =>
      split_ifs with halloc
      · exact .inr ⟨newCapacity, le_of_doubleUntil hdouble, rfl⟩
      · exact .inl rfl

@[simp]
theorem capacity_moveTo (b : Buffer) (newCapacity : Nat) :
    (b.moveTo newCapacity).capacity = max b.writePos newCapacity := by
  simp [moveTo, capacity]
  omega

@[simp]
theorem bytes_moveTo (b : Buffer) (newCapacity : Nat) : (b.moveTo newCapacity).bytes = b.bytes := by
  simp [moveTo, bytes, b.writePos_le]

/-- `reserve` leaves the cursors and the written bytes alone, and unless it fails the block has the
    requested room. -/
theorem reserve_spec (alloc : Allocator) (b : Buffer) (newCapacity : Nat) :
    (b.reserve alloc newCapacity).writePos = b.writePos ∧
      (b.reserve alloc newCapacity).readPos = b.readPos ∧
      (b.reserve alloc newCapacity).bytes = b.bytes ∧
      ((b.reserve alloc newCapacity).writeFailed = false →
        b.writeFailed = false ∧ newCapacity ≤ (b.reserve alloc newCapacity).capacity) := by
  unfold reserve
  split_ifs with hroom
  · rcases grow_cases alloc b newCapacity with heq | ⟨grown, hle, heq⟩
    · rw [heq]
      exact ⟨rfl, rfl, rfl, fun h => by simp [fail] at h⟩
    · rw [heq]
      refine ⟨rfl, rfl, bytes_moveTo b grown, fun h => ⟨h, ?_⟩⟩
      rw [capacity_moveTo]
      exact le_trans hle (le_max_right _ _)
  · exact ⟨rfl, rfl, rfl, fun h => ⟨h, by omega⟩⟩

def ensureCapacity (alloc : Allocator) (b : Buffer) (additional : Nat) : Bool × Buffer :=
  if b.writeFailed then (false, b)
  else if additional > sizeMax - b.writePos then (false, b.fail)
  else
    let grown := b.reserve alloc (b.writePos + additional)
    (!grown.writeFailed, grown)

/-- `resize` and `setWritePosition` have one body: move the write cursor, never behind the read
    cursor, growing the block when the new position lies beyond it. -/
def moveWritePos (alloc : Allocator) (b : Buffer) (pos : Nat) : Buffer :=
  if hread : pos < b.readPos then b
  else if hcap : pos > b.capacity then
    if hfail : (b.reserve alloc pos).writeFailed then b.reserve alloc pos
    else
      { b.reserve alloc pos with
        writePos := pos
        readPos_le := by
          rw [(reserve_spec alloc b pos).2.1]
          omega
        writePos_le := ((reserve_spec alloc b pos).2.2.2 (by simpa using hfail)).2 }
  else { b with writePos := pos, readPos_le := by omega, writePos_le := Nat.le_of_not_lt hcap }

def resize (alloc : Allocator) (b : Buffer) (newSize : Nat) : Buffer := b.moveWritePos alloc newSize

def setWritePosition (alloc : Allocator) (b : Buffer) (pos : Nat) : Buffer :=
  b.moveWritePos alloc pos

/-! ### Writes -/

/-- A copy into the allocated block through a raw pointer: the cursors do not move. -/
def store (b : Buffer) (pos : Nat) (content : Bytes) : Buffer :=
  { b with
    data := splice pos content b.data
    writePos_le := le_trans b.writePos_le (length_le_length_splice pos content b.data) }

/-- Store bytes at the write cursor and advance it. Room has been ensured by the caller. -/
def put (b : Buffer) (content : Bytes) : Buffer :=
  { b with
    data := splice b.writePos content b.data
    writePos := b.writePos + content.length
    readPos_le := Nat.le_add_right_of_le b.readPos_le
    writePos_le := le_length_splice b.writePos_le content }

/-- The shape all fixed-width writes share: ensure room, then store the bytes. -/
def writeFixed (alloc : Allocator) (b : Buffer) (content : Bytes) : Bool × Buffer :=
  match b.ensureCapacity alloc content.length with
  | (true, grown) => (true, grown.put content)
  | (false, grown) => (false, grown)

def writeUint8 (alloc : Allocator) (b : Buffer) (value : UInt8) : Bool × Buffer :=
  b.writeFixed alloc [value]

def writeBool (alloc : Allocator) (b : Buffer) (value : Bool) : Bool × Buffer :=
  b.writeUint8 alloc (if value then 1 else 0)

def writeInt8 (alloc : Allocator) (b : Buffer) (value : Int8) : Bool × Buffer :=
  b.writeFixed alloc [value.toUInt8]

def writeUint16 (alloc : Allocator) (b : Buffer) (value : UInt16) : Bool × Buffer :=
  b.writeFixed alloc (LittleEndian.encode 2 value.toNat)

def writeInt16 (alloc : Allocator) (b : Buffer) (value : Int16) : Bool × Buffer :=
  b.writeUint16 alloc value.toUInt16

def writeUint32 (alloc : Allocator) (b : Buffer) (value : UInt32) : Bool × Buffer :=
  b.writeFixed alloc (LittleEndian.encode 4 value.toNat)

def writeInt32 (alloc : Allocator) (b : Buffer) (value : Int32) : Bool × Buffer :=
  b.writeUint32 alloc value.toUInt32

def writeUint64 (alloc : Allocator) (b : Buffer) (value : UInt64) : Bool × Buffer :=
  b.writeFixed alloc (LittleEndian.encode 8 value.toNat)

def writeInt64 (alloc : Allocator) (b : Buffer) (value : Int64) : Bool × Buffer :=
  b.writeUint64 alloc value.toUInt64

/-- A `float` is written through its bit pattern. -/
def writeFloat32 (alloc : Allocator) (b : Buffer) (bits : UInt32) : Bool × Buffer :=
  b.writeUint32 alloc bits

/-- A `double` is written through its bit pattern. -/
def writeFloat64 (alloc : Allocator) (b : Buffer) (bits : UInt64) : Bool × Buffer :=
  b.writeUint64 alloc bits

def writeRaw (alloc : Allocator) (b : Buffer) (content : Bytes) : Bool × Buffer :=
  if content.length > 0 then b.writeFixed alloc content else (true, b)

/-- `writeString` and `writeBytes` share one body: room for prefix and content is ensured at once. -/
def writePrefixed (alloc : Allocator) (b : Buffer) (content : Bytes) : Bool × Buffer :=
  if content.length > uint32Max - 4 then (false, { b with writeFailed := true })
  else
    match b.ensureCapacity alloc (4 + content.length) with
    | (false, grown) => (false, grown)
    | (true, grown) =>
      match grown.writeUint32 alloc (UInt32.ofNat content.length) with
      | (false, b') => (false, b')
      | (true, b') => if content.length > 0 then b'.writeRaw alloc content else (true, b')

def writeString (alloc : Allocator) (b : Buffer) (value : Bytes) : Bool × Buffer :=
  b.writePrefixed alloc value

def writeBytes (alloc : Allocator) (b : Buffer) (value : Bytes) : Bool × Buffer :=
  b.writePrefixed alloc value

/-! ### Cursor management -/

def reset (b : Buffer) : Buffer :=
  { b with readPos := 0, writeFailed := false, readPos_le := Nat.zero_le _ }

def clear (b : Buffer) : Buffer :=
  { b with
    writePos := 0
    readPos := 0
    writeFailed := false
    readPos_le := le_rfl
    writePos_le := Nat.zero_le _ }

def trySetReadPosition (b : Buffer) (pos : Nat) : Bool × Buffer :=
  if h : pos ≤ b.writePos then (true, { b with readPos := pos, readPos_le := h }) else (false, b)

def assign (alloc : Allocator) (b : Buffer) (content : Bytes) : Buffer :=
  if content.length > 0 then
    let grown := b.clear.reserve alloc content.length
    if grown.writeFailed then grown
    else
      { grown with
        data := splice 0 content grown.data
        writePos := content.length
        readPos := 0
        readPos_le := Nat.zero_le _
        writePos_le := by simpa using le_length_splice (Nat.zero_le grown.data.length) content }
  else b.clear

def compact (b : Buffer) : Buffer :=
  { b with
    data := if b.remaining > 0 ∧ b.readPos > 0 then splice 0 b.unread b.data else b.data
    writePos := b.remaining
    readPos := 0
    readPos_le := Nat.zero_le _
    writePos_le := by
      have hle : b.remaining ≤ b.data.length := le_trans (Nat.sub_le _ _) b.writePos_le
      split_ifs
      · simpa using le_length_splice (Nat.zero_le b.data.length) b.unread
      · exact hle }

/-- `writableTail`: the room offered after the write cursor, `none` for a null pointer. -/
def writableTail (alloc : Allocator) (b : Buffer) : Option Nat × Buffer :=
  if b.writeFailed then (none, b)
  else
    let grown := if b.writePos = b.capacity then b.reserve alloc (b.writePos + 1) else b
    if grown.writeFailed then (none, grown)
    else (some (grown.capacity - grown.writePos), grown)

def commitWritten (b : Buffer) (n : Nat) : Bool × Buffer :=
  if b.writeFailed then (false, b)
  else if h : n ≤ b.capacity - b.writePos then
    (true,
      { b with
        writePos := b.writePos + n
        readPos_le := Nat.le_add_right_of_le b.readPos_le
        writePos_le := by
          have := b.writePos_le
          unfold capacity at h
          omega })
  else (false, b)

end Buffer

/-! ### Read primitives

A read returns its value, if any, and the position it leaves behind, which need not be the starting
position when the read fails. -/

namespace BufferRead

def canRead (limit pos n : Nat) : Bool := pos ≤ limit && n ≤ limit - pos

/-- The shape all fixed-width integer reads share. -/
def readFixed (width : Nat) (data : Bytes) (limit pos : Nat) : Option Nat × Nat :=
  if canRead limit pos width then
    (some (LittleEndian.decode ((data.drop pos).take width)), pos + width)
  else (none, pos)

/-- Apply a conversion to the value of a read. -/
def mapValue {α β : Type} (f : α → β) (result : Option α × Nat) : Option β × Nat :=
  (result.1.map f, result.2)

def readUint8 (data : Bytes) (limit pos : Nat) : Option UInt8 × Nat :=
  mapValue UInt8.ofNat (readFixed 1 data limit pos)

def readBool (data : Bytes) (limit pos : Nat) : Option Bool × Nat :=
  mapValue (fun byte => byte != 0) (readUint8 data limit pos)

def readInt8 (data : Bytes) (limit pos : Nat) : Option Int8 × Nat :=
  mapValue UInt8.toInt8 (readUint8 data limit pos)

def readUint16 (data : Bytes) (limit pos : Nat) : Option UInt16 × Nat :=
  mapValue UInt16.ofNat (readFixed 2 data limit pos)

def readInt16 (data : Bytes) (limit pos : Nat) : Option Int16 × Nat :=
  mapValue UInt16.toInt16 (readUint16 data limit pos)

def readUint32 (data : Bytes) (limit pos : Nat) : Option UInt32 × Nat :=
  mapValue UInt32.ofNat (readFixed 4 data limit pos)

def readInt32 (data : Bytes) (limit pos : Nat) : Option Int32 × Nat :=
  mapValue UInt32.toInt32 (readUint32 data limit pos)

def readUint64 (data : Bytes) (limit pos : Nat) : Option UInt64 × Nat :=
  mapValue UInt64.ofNat (readFixed 8 data limit pos)

def readInt64 (data : Bytes) (limit pos : Nat) : Option Int64 × Nat :=
  mapValue UInt64.toInt64 (readUint64 data limit pos)

/-- A `float` is read as its bit pattern. -/
def readFloat32 (data : Bytes) (limit pos : Nat) : Option UInt32 × Nat :=
  readUint32 data limit pos

/-- A `double` is read as its bit pattern. -/
def readFloat64 (data : Bytes) (limit pos : Nat) : Option UInt64 × Nat :=
  readUint64 data limit pos

/-- `readString` and `readBytes` share one body. A length prefix that runs past the limit fails after
    the prefix has been consumed. -/
def readPrefixed (data : Bytes) (limit pos : Nat) : Option Bytes × Nat :=
  match readUint32 data limit pos with
  | (none, pos) => (none, pos)
  | (some len, pos) =>
    if len = 0 then (some [], pos)
    else if canRead limit pos len.toNat then
      (some ((data.drop pos).take len.toNat), pos + len.toNat)
    else (none, pos)

def readString (data : Bytes) (limit pos : Nat) : Option Bytes × Nat :=
  readPrefixed data limit pos

def readBytes (data : Bytes) (limit pos : Nat) : Option Bytes × Nat :=
  readPrefixed data limit pos

end BufferRead

/-- A typed read: the value and the bytes behind it, or nothing when the read fails. -/
abbrev View (α : Type) := Bytes → Option (α × Bytes)

namespace View

/-- The reader whose primitive is given. -/
def ofRead {α : Type} (read : Bytes → Nat → Nat → Option α × Nat) : View α := fun view =>
  match read view view.length 0 with
  | (some value, pos) => some (value, view.drop pos)
  | (none, _) => none

/-- Nothing is read. -/
def pure {α : Type} (value : α) : View α := fun view => some (value, view)

/-- One read after another. -/
def bind {α β : Type} (first : View α) (next : α → View β) : View β := fun view =>
  match first view with
  | none => none
  | some (value, rest) => next value rest

instance : Monad View where
  pure := pure
  bind := bind

/-- A read that always fails. -/
def fail {α : Type} : View α := fun _ => none

/-- The value read from a payload, whatever follows it. -/
def run {α : Type} (reader : View α) (payload : Bytes) : Option α := (reader payload).map Prod.fst

end View

def tryReadBool : View Bool := View.ofRead BufferRead.readBool

def tryReadUint8 : View UInt8 := View.ofRead BufferRead.readUint8

def tryReadUint16 : View UInt16 := View.ofRead BufferRead.readUint16

def tryReadUint32 : View UInt32 := View.ofRead BufferRead.readUint32

def tryReadUint64 : View UInt64 := View.ofRead BufferRead.readUint64

def tryReadString : View Bytes := View.ofRead BufferRead.readString

/-- What is left behind the read position, `remaining()`. -/
def remaining : View Nat := fun view => some (view.length, view)

/-- A counted sequence of reads. -/
def readTimes {α : Type} (reader : View α) : Nat → View (List α)
  | 0 => pure []
  | count + 1 => do
      let value ← reader
      let values ← readTimes reader count
      return value :: values

end OmniBinder
