/-
Module: OmniBinder.Proofs.BufferContract
Purpose: What `Buffer` and `BufferView` promise their users over whole sequences of calls: what is left
  of a read that fails, what every sequence of operations keeps, and that what was written is read back.
Trusted boundary: none
Main exports: readTyped, BufferOperation, Buffer.Sound
-/
import OmniBinder.Proofs.CppWire
import OmniBinder.Proofs.RecordRoundTrip

namespace OmniBinder

open BufferRead Idl List Sticky View

variable {α β : Type} {data : Bytes} {limit pos : Nat}

/-! ### The typed reads -/

/-- The read primitives, by the type they read. -/
def readTyped (type : PrimitiveType) (data : Bytes) (limit pos : Nat) : Option Value × Nat :=
  match type with
  | .bool => mapValue .bool (readBool data limit pos)
  | .int8 => mapValue .int8 (readInt8 data limit pos)
  | .uint8 => mapValue .uint8 (readUint8 data limit pos)
  | .int16 => mapValue .int16 (readInt16 data limit pos)
  | .uint16 => mapValue .uint16 (readUint16 data limit pos)
  | .int32 => mapValue .int32 (readInt32 data limit pos)
  | .uint32 => mapValue .uint32 (readUint32 data limit pos)
  | .int64 => mapValue .int64 (readInt64 data limit pos)
  | .uint64 => mapValue .uint64 (readUint64 data limit pos)
  | .float32 => mapValue .float32 (readFloat32 data limit pos)
  | .float64 => mapValue .float64 (readFloat64 data limit pos)
  | .string => mapValue .string (readString data limit pos)
  | .bytes => mapValue .bytes (readBytes data limit pos)

/-- `tryReadStringView` and `tryReadBytesView` share one body: nothing is copied, and a length that runs
    past the limit puts the position back. -/
def readPrefixedView (data : Bytes) (limit pos : Nat) : Option Bytes × Nat :=
  match readUint32 data limit pos with
  | (none, pos) => (none, pos)
  | (some len, after) =>
    if canRead limit after len.toNat then
      (some ((data.drop after).take len.toNat), after + len.toNat)
    else (none, pos)

def tryReadStringView (data : Bytes) (limit pos : Nat) : Option Bytes × Nat :=
  readPrefixedView data limit pos

def tryReadBytesView (data : Bytes) (limit pos : Nat) : Option Bytes × Nat :=
  readPrefixedView data limit pos

/-- A failing read leaves the position where it was. -/
def RollsBack (read : Positional α) (data : Bytes) (limit pos : Nat) : Prop :=
  (read data limit pos).1 = none → (read data limit pos).2 = pos

/-- The body that a readable length prefix announces lies below the limit. -/
def BodyFits (data : Bytes) (limit pos : Nat) : Prop :=
  ∀ len after, readUint32 data limit pos = (some len, after) → canRead limit after len.toNat = true

theorem rollsBack_readFixed (width : Nat) : RollsBack (readFixed width) data limit pos := by
  unfold RollsBack readFixed
  split_ifs <;> simp

theorem RollsBack.map {read : Positional α} (h : RollsBack read data limit pos) (f : α → β) :
    RollsBack (fun data limit pos => mapValue f (read data limit pos)) data limit pos :=
  fun hnone => h (Option.map_eq_none_iff.mp hnone)

theorem readUint32_some {len : UInt32} {after : Nat} (h : readUint32 data limit pos = (some len, after)) :
    after = pos + 4 ∧ after ≤ limit := by
  unfold readUint32 readFixed mapValue canRead at h
  split_ifs at h with hroom
  · cases h
    simp only [Bool.and_eq_true, decide_eq_true_eq] at hroom
    omega
  · cases h

theorem readFixed_le (width : Nat) (hpos : pos ≤ limit) : (readFixed width data limit pos).2 ≤ limit := by
  unfold readFixed canRead
  split_ifs with hroom
  · simp only [Bool.and_eq_true, decide_eq_true_eq] at hroom
    omega
  · exact hpos

theorem readPrefixed_le (hpos : pos ≤ limit) : (readPrefixed data limit pos).2 ≤ limit := by
  have hprefix : (readUint32 data limit pos).2 ≤ limit := readFixed_le 4 hpos
  unfold readPrefixed
  generalize readUint32 data limit pos = result at hprefix ⊢
  obtain ⟨_ | len, after⟩ := result
  · exact hprefix
  dsimp only at hprefix ⊢
  split_ifs with hzero hroom
  · exact hprefix
  · simp only [canRead, Bool.and_eq_true, decide_eq_true_eq] at hroom
    omega
  · exact hprefix

/-- A read stops at the limit. -/
theorem readTyped_le (type : PrimitiveType) (hpos : pos ≤ limit) :
    (readTyped type data limit pos).2 ≤ limit := by
  cases type with
  | string | bytes => exact readPrefixed_le hpos
  | _ => exact readFixed_le _ hpos

/-- The two ways to read behind a prefix part where the body does not fit. -/
theorem readPrefixed_iff (data : Bytes) (limit pos : Nat) :
    (RollsBack readPrefixed data limit pos ↔ BodyFits data limit pos) ∧
      (readPrefixed data limit pos = readPrefixedView data limit pos ↔ BodyFits data limit pos) := by
  have hback : RollsBack readUint32 data limit pos := (rollsBack_readFixed 4).map _
  unfold RollsBack BodyFits readPrefixed readPrefixedView at *
  rcases hread : readUint32 data limit pos with ⟨_ | len, after⟩
  · rw [hread] at hback
    simpa using hback
  obtain ⟨rfl, hafter⟩ := readUint32_some hread
  cases hroom : canRead limit (pos + 4) len.toNat with
  | true =>
    rcases eq_or_ne len 0 with rfl | hzero
    · rw [show (0 : UInt32).toNat = 0 from rfl] at hroom
      simp [hroom]
    · simp [hzero, hroom]
  | false =>
    have hzero : len ≠ 0 := by
      rintro rfl
      simp [canRead, hafter] at hroom
    simp [hzero, hroom]

/-! ### Sequences of operations -/

/-- The writes that a buffer offers; a typed write is that of a primitive value. -/
inductive BufferWrite where
  | typed (value : Value) (primitive : value.isPrimitive = true)
  | raw (content : Bytes)

namespace BufferWrite

def content : BufferWrite → Bytes
  | typed value _ => value.wire
  | raw content => content

def Fits : BufferWrite → Prop
  | typed value _ => tooLong value = false
  | raw _ => True

def perform (alloc : Allocator) (b : Buffer) : BufferWrite → Bool × Buffer
  | typed value _ => writePrimitive alloc b value
  | raw content => b.writeRaw alloc content

theorem wrote (alloc : Allocator) (b : Buffer) (write : BufferWrite) :
    Buffer.Wrote alloc write.Fits write.content b (write.perform alloc b) := by
  cases write with
  | typed value primitive => exact wrote_writePrimitive alloc primitive b
  | raw content => exact Buffer.wrote_writeRaw alloc b content

end BufferWrite

inductive BufferOperation where
  | write (write : BufferWrite)
  | read (type : PrimitiveType)
  | reserve (newCapacity : Nat)
  | resize (newSize : Nat)
  | setWritePosition (pos : Nat)
  | trySetReadPosition (pos : Nat)
  | assign (content : Bytes)
  | compact
  | writableTail
  | commitWritten (n : Nat)
  | reset
  | clear

/-- The operations that take the failure flag back. -/
def BufferOperation.clears : BufferOperation → Bool
  | assign _ | reset | clear => true
  | _ => false

namespace Buffer

variable {b : Buffer} {alloc : Allocator}

def perform (b : Buffer) (alloc : Allocator) : BufferOperation → Buffer
  | .write write => (write.perform alloc b).2
  | .read type => (b.trySetReadPosition (readTyped type b.data b.writePos b.readPos).2).2
  | .reserve newCapacity => b.reserve alloc newCapacity
  | .resize newSize => b.resize alloc newSize
  | .setWritePosition pos => b.setWritePosition alloc pos
  | .trySetReadPosition pos => (b.trySetReadPosition pos).2
  | .assign content => b.assign alloc content
  | .compact => b.compact
  | .writableTail => (b.writableTail alloc).2
  | .commitWritten n => (b.commitWritten n).2
  | .reset => b.reset
  | .clear => b.clear

/-- One operation after the other, each with the memory there is when it is called. -/
def run (b : Buffer) (steps : List (Allocator × BufferOperation)) : Buffer :=
  steps.foldl (fun b step => b.perform step.1 step.2) b

/-- The block stays addressable and the failure flag raised. -/
def Kept (b b' : Buffer) : Prop :=
  (b.capacity < sizeMax → b'.capacity < sizeMax) ∧ (b.writeFailed = true → b'.writeFailed = true)

theorem kept_reserve (alloc : Allocator) (b : Buffer) (newCapacity : Nat) :
    Kept b (b.reserve alloc newCapacity) := by
  refine ⟨reserve_addressable alloc newCapacity, fun hfailed => ?_⟩
  by_contra hclear
  have hboth := ((reserve_spec alloc b newCapacity).2.2.2 (by simpa using hclear)).1
  rw [hfailed] at hboth
  cases hboth

theorem kept_moveWritePos (alloc : Allocator) (b : Buffer) (pos : Nat) :
    Kept b (b.moveWritePos alloc pos) := by
  unfold moveWritePos
  split_ifs
  · exact ⟨id, id⟩
  · exact kept_reserve alloc b pos
  · exact kept_reserve alloc b pos
  · exact ⟨id, id⟩

theorem kept_trySetReadPosition (b : Buffer) (pos : Nat) : Kept b (b.trySetReadPosition pos).2 := by
  unfold trySetReadPosition
  split_ifs <;> exact ⟨id, id⟩

theorem kept_writableTail (alloc : Allocator) (b : Buffer) : Kept b (b.writableTail alloc).2 := by
  have hgrown : Kept b (if b.writePos = b.capacity then b.reserve alloc (b.writePos + 1) else b) := by
    split_ifs
    · exact kept_reserve alloc b _
    · exact ⟨id, id⟩
  by_cases hfailed : b.writeFailed = true
  · rw [writableTail, if_pos hfailed]
    exact ⟨id, id⟩
  · rw [writableTail, if_neg hfailed]
    generalize (if b.writePos = b.capacity then b.reserve alloc (b.writePos + 1) else b) = grown at hgrown ⊢
    dsimp only
    split_ifs <;> exact hgrown

theorem kept_commitWritten (b : Buffer) (n : Nat) : Kept b (b.commitWritten n).2 := by
  unfold commitWritten
  split_ifs <;> exact ⟨id, id⟩

theorem perform_kept (alloc : Allocator) {operation : BufferOperation} (h : operation.clears = false) :
    Kept b (b.perform alloc operation) := by
  cases operation with
  | write write =>
    have hwrote := write.wrote alloc b
    exact ⟨hwrote.addressable, fun hfailed => by rw [perform, hwrote.flag, hfailed, Bool.true_or]⟩
  | read type => exact kept_trySetReadPosition b _
  | reserve newCapacity => exact kept_reserve alloc b newCapacity
  | resize newSize => exact kept_moveWritePos alloc b newSize
  | setWritePosition pos => exact kept_moveWritePos alloc b pos
  | trySetReadPosition pos => exact kept_trySetReadPosition b pos
  | compact => exact ⟨b.capacity_compact.trans_lt, id⟩
  | writableTail => exact kept_writableTail alloc b
  | commitWritten n => exact kept_commitWritten b n
  | assign | reset | clear => cases h

theorem assign_addressable (alloc : Allocator) (content : Bytes) (h : b.capacity < sizeMax) :
    (b.assign alloc content).capacity < sizeMax := by
  have hgrown : (b.clear.reserve alloc content.length).capacity < sizeMax := reserve_addressable alloc _ h
  unfold assign
  split_ifs with hsome
  · dsimp only
    split_ifs with hfailed
    · exact hgrown
    · have hroom := ((reserve_spec alloc b.clear content.length).2.2.2 (by simpa using hfailed)).2
      exact lt_of_eq_of_lt (length_splice ((Nat.zero_add _).trans_le hroom)) hgrown
  · exact h

theorem run_addressable (h : b.capacity < sizeMax) (steps : List (Allocator × BufferOperation)) :
    (b.run steps).capacity < sizeMax := by
  induction steps generalizing b with
  | nil => exact h
  | cons step steps ih =>
    obtain ⟨alloc, operation⟩ := step
    refine ih ?_
    cases hclears : operation.clears with
    | false => exact (perform_kept alloc hclears).1 h
    | true =>
      cases operation with
      | assign content => exact assign_addressable alloc content h
      | reset | clear => exact h
      | _ => cases hclears

/-- The flag stays raised until it is taken back. -/
theorem run_failed (h : b.writeFailed = true) {steps : List (Allocator × BufferOperation)}
    (hsteps : ∀ step ∈ steps, step.2.clears = false) : (b.run steps).writeFailed = true := by
  induction steps generalizing b with
  | nil => exact h
  | cons step steps ih =>
    rw [forall_mem_cons] at hsteps
    exact ih ((perform_kept step.1 hsteps.1).2 h) hsteps.2

/-- What holds of a buffer between two calls. The cursors are ordered, so that nothing underflows, and
    reads stop at the write cursor. The loop of `grow` ends, whatever the fuel of the model, with a size
    that is addressable, and what was written is kept. A failed write moves no cursor, and until the flag
    is taken back every write of a byte or more fails and changes nothing. -/
structure Sound (b : Buffer) : Prop where
  ordered : b.readPos ≤ b.writePos ∧ b.writePos ≤ b.capacity ∧ b.capacity < sizeMax
  reads : ∀ type, (readTyped type b.data b.writePos b.readPos).2 ≤ b.writePos
  terminates : ∀ minCapacity extra, doubleUntil minCapacity (65 + extra) b.nextCapacity =
    doubleUntil minCapacity 65 b.nextCapacity
  grows : ∀ alloc minCapacity, SameContent b (b.grow alloc minCapacity) ∧
    (b.grow alloc minCapacity).capacity < sizeMax
  failed : ∀ alloc (write : BufferWrite), (write.perform alloc b).1 = false →
    SameContent b (write.perform alloc b).2 ∧
      ∀ later : List (Allocator × BufferOperation), (∀ step ∈ later, step.2.clears = false) →
        ∀ alloc' (next : BufferWrite), next.content ≠ [] →
          next.perform alloc' ((write.perform alloc b).2.run later) =
            (false, (write.perform alloc b).2.run later)

end Buffer

/-! ### What was written is read back -/

/-- The values of a write; there is no raw read, so raw bytes are read one by one. -/
def BufferWrite.values : BufferWrite → List Value
  | typed value _ => [value]
  | raw content => content.map .uint8

/-- The value is of the primitive type, whatever the packages. -/
def OfType (type : PrimitiveType) (value : Value) : Prop := HasType .empty .empty (.prim type) value

/-- Reads of the types, one after the other. -/
def readEach : List PrimitiveType → Positional (List Value)
  | [] => pure []
  | type :: types => do
      let value ← readTyped type
      let values ← readEach types
      return value :: values

/-- Writes until one fails, each with the memory there is when it is called. -/
def Buffer.writeEach (b : Buffer) (writes : List (Allocator × BufferWrite)) : Bool × Buffer :=
  runUntilFailure (writes.map fun step b => step.2.perform step.1 b) b

theorem View.ofRead_map (read : Positional α) (f : α → β) :
    ofRead (fun data limit pos => mapValue f (read data limit pos)) =
      (ofRead read >>= fun value => Pure.pure (f value)) := by
  funext view
  change _ = bind (ofRead read) (fun value => pure (f value)) view
  simp only [bind, ofRead, mapValue]
  rcases read view view.length 0 with ⟨_ | value, after⟩ <;> rfl

theorem mirrors_map {read : Positional α} (h : Mirrors read (ofRead read)) (f : α → β) :
    Mirrors (fun data limit pos => mapValue f (read data limit pos))
      (ofRead fun data limit pos => mapValue f (read data limit pos)) := by
  rw [ofRead_map]
  convert h.bind fun value => .pure (f value) using 1
  funext data limit pos
  change _ = Positional.bind read (fun value => Pure.pure (f value)) data limit pos
  simp only [Positional.bind, mapValue]
  rcases read data limit pos with ⟨_ | value, after⟩ <;> rfl

theorem mirrors_readTyped (type : PrimitiveType) :
    Mirrors (readTyped type) (ofRead (readTyped type)) := by
  have hword : Mirrors readUint64 tryReadUint64 := tryReadUint64_eq ▸ mirrors_fixed 8 _
  cases type with
  | bool | int8 => exact mirrors_map (mirrors_map mirrors_readUint8 _) _
  | uint8 => exact mirrors_map mirrors_readUint8 _
  | int16 => exact mirrors_map (mirrors_map mirrors_readUint16 _) _
  | uint16 => exact mirrors_map mirrors_readUint16 _
  | int32 => exact mirrors_map (mirrors_map mirrors_readUint32 _) _
  | uint32 | float32 => exact mirrors_map mirrors_readUint32 _
  | int64 => exact mirrors_map (mirrors_map hword _) _
  | uint64 | float64 => exact mirrors_map hword _
  | string | bytes => exact mirrors_map mirrors_readString _

theorem readPrimitive_eq (type : PrimitiveType) : readPrimitive type = ofRead (readTyped type) := by
  cases type <;> exact (ofRead_map _ _).symm

theorem readEach_wire {types : List PrimitiveType} {values : List Value} (htypes : Forall₂ OfType types values)
    (hshort : ∀ value ∈ values, value.wire.length < 2 ^ 32) :
    ∃ view, Mirrors (readEach types) view ∧ Reads view (values.flatMap Value.wire) values := by
  induction htypes with
  | nil => exact ⟨_, .pure [], Reads.pure []⟩
  | @cons type value types values htyped _ ih =>
    rw [forall_mem_cons] at hshort
    obtain ⟨view, hmirrors, hreads⟩ := ih hshort.2
    have hfirst : Reads (ofRead (readTyped type)) value.wire value :=
      readPrimitive_eq type ▸ fun rest => readPrimitive_wire rest htyped hshort.1
    refine ⟨_, .bind (mirrors_readTyped type) fun _ => .bind hmirrors fun _ => .pure _, ?_⟩
    rw [flatMap_cons, ← append_nil (values.flatMap Value.wire)]
    exact .bind hfirst (.bind hreads (.pure _))

theorem BufferWrite.content_eq (write : BufferWrite) : write.content = write.values.flatMap Value.wire := by
  cases write with
  | typed value primitive => simp [content, values]
  | raw content => simp [BufferWrite.content, values, flatMap_map, Value.wire, LittleEndian.encode]

theorem BufferWrite.Fits.short {write : BufferWrite} (h : write.Fits) :
    ∀ value ∈ write.values, value.wire.length < 2 ^ 32 := by
  cases write with
  | typed value primitive =>
    rw [values, forall_mem_singleton]
    cases value with
    | struct values => cases primitive
    | array values => cases primitive
    | string content | bytes content =>
      simp [Fits, tooLong, uint32Max] at h
      simp only [Value.wire, length_append, LittleEndian.length_encode]
      omega
    | _ => simp [Value.wire]
  | raw content => simp [values, Value.wire]

theorem Buffer.writeEach_ok {writes : List (Allocator × BufferWrite)} {b b' : Buffer}
    (h : b.writeEach writes = (true, b')) :
    b'.bytes = b.bytes ++ (writes.flatMap (·.2.values)).flatMap Value.wire ∧ b'.readPos = b.readPos ∧
      ∀ value ∈ writes.flatMap (·.2.values), value.wire.length < 2 ^ 32 := by
  induction writes generalizing b with
  | nil =>
    cases h
    simp
  | cons step writes ih =>
    have hwrote := step.2.wrote step.1 b
    simp only [writeEach, map_cons, runUntilFailure] at h
    rcases hstep : step.2.perform step.1 b with ⟨_ | _, middle⟩
    · rw [hstep] at h
      cases h
    rw [hstep] at h hwrote
    obtain ⟨hbytes, hread, hshort⟩ := ih h
    refine ⟨?_, hread.trans hwrote.readPos_eq, ?_⟩
    · rw [hbytes, hwrote.bytes_eq, if_pos rfl, step.2.content_eq, flatMap_cons, flatMap_append, append_assoc]
    · rw [flatMap_cons]
      exact forall_mem_append.mpr ⟨(hwrote.fitted rfl).short, hshort⟩

/-- What a sequence of writes has put behind the read cursor is read back by reads of the same types, from
    the buffer and from a view of the written bytes, and nothing is left over. -/
theorem writes_read_back (b b' : Buffer)
    (writes : List (Allocator × BufferWrite)) (types : List PrimitiveType) (output : List Value)
    (hcursors : b.readPos = b.writePos) (hwrites : b.writeEach writes = (true, b'))
    (htypes : Forall₂ OfType types (writes.flatMap (·.2.values))) :
    ((b'.deserialize (readEach types) output).1 = (true, writes.flatMap (·.2.values)) ∧
        (b'.deserialize (readEach types) output).2.unread = []) ∧
      ∀ v : BufferView, v.data = b'.bytes.drop b.writePos → v.readPos = 0 →
        (v.deserialize (readEach types) output).1 = (true, writes.flatMap (·.2.values)) ∧
          (v.deserialize (readEach types) output).2.unread = [] := by
  obtain ⟨hbytes, hread, hshort⟩ := Buffer.writeEach_ok hwrites
  obtain ⟨view, hmirrors, hreads⟩ := readEach_wire htypes hshort
  have hwire : b'.bytes.drop b.writePos = (writes.flatMap (·.2.values)).flatMap Value.wire ++ [] := by
    rw [hbytes, ← b.length_bytes, drop_left, append_nil]
  constructor
  · have hresult := Buffer.decodes hmirrors.agrees b' output
    rwa [Decodes, Buffer.unread, hread, hcursors, hwire, hreads []] at hresult
  · intro v hdata hpos
    have hresult := BufferView.decodes hmirrors.agrees v output
    rwa [Decodes, BufferView.unread, hdata, hpos, drop_zero, hwire, hreads []] at hresult

theorem number_and_raw_byte_read_back :
    ((Buffer.writeEach ⟨[0, 0, 0], 0, 0, false, by decide, by decide⟩
        [(.succeeds, .typed (.uint16 258) rfl), (.succeeds, .raw [7])]).2.deserialize
      (readEach [.uint16, .uint8]) []).1 = (true, [.uint16 258, .uint8 7]) :=
  (writes_read_back ⟨[0, 0, 0], 0, 0, false, by decide, by decide⟩ _
    [(.succeeds, .typed (.uint16 258) rfl), (.succeeds, .raw [7])] [.uint16, .uint8] [] rfl rfl
    (.cons (by simp [OfType, HasType]) (.cons (by simp [OfType, HasType]) .nil))).1.1

end OmniBinder
