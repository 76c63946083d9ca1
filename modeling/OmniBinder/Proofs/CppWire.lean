/-
Module: OmniBinder.Proofs.CppWire
Purpose: The wire form of a value, what the primitive reads and writes of the generated C++ codecs do to
  it, and an encoder flattened to the primitive writes it makes. The generated C++ code makes the writes
  of its value until one fails, so serializing appends the wire form when it succeeds.
Trusted boundary: none
Main exports: Value.wire, puts_serialize
-/
import OmniBinder.Idl.GeneratedCode
import OmniBinder.Proofs.BufferSpec
import OmniBinder.Lib.Machine

namespace OmniBinder.Idl

open OmniBinder LittleEndian List BufferRead

variable {width : Nat} {primitive : PrimitiveType} {package : Ident} {element : TypeRef}

/-! ### The wire form -/

mutual

/-- The bytes of a value: numbers in little-endian order, strings and arrays behind their length, the
    fields of a class one after the other. -/
def Value.wire : Value → Bytes
  | .bool value => encode 1 (if value then 1 else 0)
  | .int8 value => encode 1 value.toUInt8.toNat
  | .uint8 value => encode 1 value.toNat
  | .int16 value => encode 2 value.toUInt16.toNat
  | .uint16 value => encode 2 value.toNat
  | .int32 value => encode 4 value.toUInt32.toNat
  | .uint32 value => encode 4 value.toNat
  | .int64 value => encode 8 value.toUInt64.toNat
  | .uint64 value => encode 8 value.toNat
  | .float32 bits => encode 4 bits.toNat
  | .float64 bits => encode 8 bits.toNat
  | .string value => encode 4 value.length ++ value
  | .bytes value => encode 4 value.length ++ value
  | .struct values => Value.wireAll values
  | .array values => encode 4 values.length ++ Value.wireAll values

/-- One wire form after the other. -/
def Value.wireAll : List Value → Bytes
  | [] => []
  | value :: values => value.wire ++ Value.wireAll values

end

mutual

/-- How deep classes and arrays are nested in a value, which is itself one level. -/
def Value.depth : Value → Nat
  | .struct values => Value.depthAll values + 1
  | .array values => Value.depthAll values + 1
  | _ => 1

def Value.depthAll : List Value → Nat
  | [] => 0
  | value :: values => max value.depth (Value.depthAll values)

end

/-- Neither a class nor an array. -/
def Value.isPrimitive : Value → Bool
  | .struct _ => false
  | .array _ => false
  | _ => true

/-- Induction on values: the members of a class and the elements of an array come before it. -/
theorem Value.tree_induction {P : Value → Prop}
    (primitive : ∀ value : Value, value.isPrimitive = true → P value)
    (struct : ∀ values : List Value, (∀ value ∈ values, P value) → P (.struct values))
    (array : ∀ values : List Value, (∀ value ∈ values, P value) → P (.array values)) :
    ∀ value : Value, P value
  | .struct values => struct values fun value _ => tree_induction primitive struct array value
  | .array values => array values fun value _ => tree_induction primitive struct array value
  | .bool _ | .int8 _ | .uint8 _ | .int16 _ | .uint16 _ | .int32 _ | .uint32 _ | .int64 _ | .uint64 _
  | .float32 _ | .float64 _ | .string _ | .bytes _ => primitive _ rfl

variable {view rest : Bytes}

/-! ### Primitive values -/

section Primitives

variable {α β : Type}

theorem View.bind_pure_eq_some {reader : View α} {make : α → β} {value : β} :
    (reader >>= fun a => pure (make a)) view = some (value, rest) ↔
      ∃ a, reader view = some (a, rest) ∧ make a = value := by
  change View.bind reader (fun a => View.pure (make a)) view = some (value, rest) ↔ _
  unfold View.bind
  cases reader view with
  | none => simp
  | some result =>
    obtain ⟨a, left⟩ := result
    simp [View.pure, and_comm]

/-- A fixed-width field read back from what was written for it. -/
theorem View.read_encode {reader : View α} {make : α → β} {number : Nat} {convert : Nat → α}
    {value : α} (hreader : reader = readFixedWidth width convert) (hrange : number < 256 ^ width)
    (hvalue : convert number = value) (rest : Bytes) :
    (reader >>= fun a => pure (make a)) (encode width number ++ rest) = some (make value, rest) := by
  subst hreader
  exact View.bind_pure_eq_some.mpr ⟨value, readFixedWidth_encode hrange hvalue rest, rfl⟩

end Primitives

theorem tryReadInt8_eq : tryReadInt8 = readFixedWidth 1 fun n => (UInt8.ofNat n).toInt8 :=
  View.ofRead_fixed fun _ _ _ => by
    simp [readInt8, readUint8, mapValue, Function.comp_def]

theorem tryReadInt16_eq : tryReadInt16 = readFixedWidth 2 fun n => (UInt16.ofNat n).toInt16 :=
  View.ofRead_fixed fun _ _ _ => by
    simp [readInt16, readUint16, mapValue, Function.comp_def]

theorem tryReadInt32_eq : tryReadInt32 = readFixedWidth 4 fun n => (UInt32.ofNat n).toInt32 :=
  View.ofRead_fixed fun _ _ _ => by
    simp [readInt32, readUint32, mapValue, Function.comp_def]

theorem tryReadInt64_eq : tryReadInt64 = readFixedWidth 8 fun n => (UInt64.ofNat n).toInt64 :=
  View.ofRead_fixed fun _ _ _ => by
    simp [readInt64, readUint64, mapValue, Function.comp_def]

theorem tryReadUint64_eq : tryReadUint64 = readFixedWidth 8 UInt64.ofNat :=
  View.ofRead_fixed fun _ _ _ => rfl

theorem tryReadFloat32_eq : tryReadFloat32 = readFixedWidth 4 UInt32.ofNat :=
  View.ofRead_fixed fun _ _ _ => rfl

theorem tryReadFloat64_eq : tryReadFloat64 = readFixedWidth 8 UInt64.ofNat :=
  View.ofRead_fixed fun _ _ _ => rfl

theorem tryReadBytes_eq : tryReadBytes = readWithPrefix := View.ofRead_prefixed

variable {value : Value}

section
variable {packages : Packages} {package : Ident}

/-- A primitive value is read back from its wire form. -/
theorem readPrimitive_wire (rest : Bytes)
    (htyped : HasType packages package (.prim primitive) value) (hlength : value.wire.length < 2 ^ 32) :
    readPrimitive primitive (value.wire ++ rest) = some (value, rest) := by
  cases value with
  | bool value =>
    cases htyped
    cases value with
    | false => exact View.read_encode tryReadBool_eq (by decide) (by decide) rest
    | true => exact View.read_encode tryReadBool_eq (by decide) (by decide) rest
  | int8 value =>
    cases htyped
    exact View.read_encode tryReadInt8_eq value.toUInt8.toNat_lt (by simp) rest
  | uint8 value =>
    cases htyped
    exact View.read_encode tryReadUint8_eq value.toNat_lt (by simp) rest
  | int16 value =>
    cases htyped
    exact View.read_encode tryReadInt16_eq value.toUInt16.toNat_lt (by simp) rest
  | uint16 value =>
    cases htyped
    exact View.read_encode tryReadUint16_eq value.toNat_lt (by simp) rest
  | int32 value =>
    cases htyped
    exact View.read_encode tryReadInt32_eq value.toUInt32.toNat_lt (by simp) rest
  | uint32 value =>
    cases htyped
    exact View.read_encode tryReadUint32_eq value.toNat_lt (by simp) rest
  | int64 value =>
    cases htyped
    exact View.read_encode tryReadInt64_eq value.toUInt64.toNat_lt (by simp) rest
  | uint64 value =>
    cases htyped
    exact View.read_encode tryReadUint64_eq value.toNat_lt (by simp) rest
  | float32 bits =>
    cases htyped
    exact View.read_encode tryReadFloat32_eq bits.toNat_lt (by simp) rest
  | float64 bits =>
    cases htyped
    exact View.read_encode tryReadFloat64_eq bits.toNat_lt (by simp) rest
  | string value =>
    cases htyped
    have hshort : value.length < 2 ^ 32 := by
      simp only [Value.wire, length_append] at hlength
      omega
    refine View.bind_pure_eq_some.mpr ⟨value, ?_, rfl⟩
    rw [tryReadString_eq]
    exact readWithPrefix_encode hshort rest
  | bytes value =>
    cases htyped
    have hshort : value.length < 2 ^ 32 := by
      simp only [Value.wire, length_append] at hlength
      omega
    refine View.bind_pure_eq_some.mpr ⟨value, ?_, rfl⟩
    rw [tryReadBytes_eq]
    exact readWithPrefix_encode hshort rest
  | struct values => simp [HasType] at htyped
  | array values => simp [HasType] at htyped

end

variable {alloc : Allocator} {buf : Buffer}

/-- The write of a string or byte string whose length prefix would overflow. -/
def tooLong : Value → Bool
  | .string content => content.length > uint32Max - 4
  | .bytes content => content.length > uint32Max - 4
  | _ => false

/-- A primitive write writes the wire form. -/
theorem wrote_writePrimitive (alloc : Allocator) (hprimitive : value.isPrimitive = true) (b : Buffer) :
    Buffer.Wrote alloc (tooLong value = false) value.wire b (writePrimitive alloc b value) := by
  have hone (byte : UInt8) : encode 1 byte.toNat = [byte] := by simp [encode]
  have hfixed (content : Bytes) : Buffer.Wrote alloc (false = false) content b (b.writeFixed alloc content) :=
    (Buffer.wrote_writeFixed alloc b content).congr (by simp)
  cases value with
  | bool value =>
    cases value with
    | false => exact hfixed _
    | true => exact hfixed _
  | int8 value =>
    rw [Value.wire, hone]
    exact hfixed _
  | uint8 value =>
    rw [Value.wire, hone]
    exact hfixed _
  | string value => exact (Buffer.wrote_writePrefixed alloc b value).congr (by simp [tooLong])
  | bytes value => exact (Buffer.wrote_writePrefixed alloc b value).congr (by simp [tooLong])
  | struct values => cases hprimitive
  | array values => cases hprimitive
  | _ => exact hfixed _

/-- A primitive write puts the wire form. -/
theorem puts_writePrimitive (alloc : Allocator) (hprimitive : value.isPrimitive = true) :
    Buffer.Puts alloc (writePrimitive alloc · value) (tooLong value = false) value.wire :=
  .of_wrote (wrote_writePrimitive alloc hprimitive)

theorem Value.wire_ne_nil (hprimitive : value.isPrimitive = true) : value.wire ≠ [] := by
  cases value with
  | struct values => cases hprimitive
  | array values => cases hprimitive
  | _ => simp [Value.wire, encode]

variable {type : TypeRef} {values : List Value}

/-! ### Typing -/

section
variable {packages : Packages}

theorem hasType_struct : HasType packages package type (.struct values) ↔
      ∃ given name fields, type = .custom given name ∧
        classFields packages (resolvePackage package given) name = some fields ∧
        FieldsHaveType packages (resolvePackage package given) fields values := by
  constructor
  · intro h
    cases type with
    | custom given name =>
      cases hfields : classFields packages (resolvePackage package given) name with
      | none => simp [HasType, hfields] at h
      | some fields => exact ⟨given, name, fields, rfl, hfields, by simpa [HasType, hfields] using h⟩
    | _ => simp [HasType] at h
  · rintro ⟨given, name, fields, rfl, hfields, h⟩
    simpa [HasType, hfields] using h

theorem hasType_array : HasType packages package type (.array values) ↔
      ∃ element, type = .array element ∧ AllHaveType packages package element values := by
  cases type with
  | array element => simp [HasType]
  | _ => simp [HasType]

theorem hasType_primitive (hprimitive : value.isPrimitive = true)
    (htyped : HasType packages package type value) : ∃ primitive, type = .prim primitive := by
  cases value with
  | struct values => cases hprimitive
  | array values => cases hprimitive
  | _ => exact ⟨_, htyped⟩

theorem fieldsHaveType_cons {fields : List FieldDef} :
    FieldsHaveType packages package fields (value :: values) ↔
      ∃ field others, fields = field :: others ∧ HasType packages package field.type value ∧
        FieldsHaveType packages package others values := by
  cases fields with
  | nil => simp [FieldsHaveType]
  | cons field others => simp [FieldsHaveType]

/-- So many fields of one type: the elements of an array are typed, written and read as such fields. -/
def repeated (element : TypeRef) (count : Nat) : List FieldDef :=
  List.replicate count ⟨element, ⟨ascii "element", by decide⟩⟩

theorem fieldsHaveType_repeated : FieldsHaveType packages package (repeated element values.length) values ↔
    AllHaveType packages package element values := by
  induction values with
  | nil => simp [FieldsHaveType, AllHaveType, repeated]
  | cons value values ih => exact and_congr_right' ih

/-! ### Writing -/

theorem serialize_primitive {code : SerializeCode} (hprimitive : value.isPrimitive = true) :
    code.exec alloc packages buf value = writePrimitive alloc buf value := by
  cases value with
  | struct values => cases hprimitive
  | array values => cases hprimitive
  | _ => simp only [SerializeCode.exec]

end

end OmniBinder.Idl

namespace OmniBinder

open Sticky List

variable {alloc : Allocator}

/-- A write of something keeps the failure flag. -/
theorem Buffer.Wrote.sticky {fits : Prop} {content : Bytes} {write : Buffer → Bool × Buffer}
    (h : ∀ b, Wrote alloc fits content b (write b)) (hcontent : content ≠ []) :
    Step Buffer.writeFailed write where
  raises b hok := by rw [(h b).flag, hok, Bool.not_false, Bool.or_true]
  inert b hfailed := Prod.ext (((h b).inert hfailed).2 hcontent) ((h b).inert hfailed).1

variable {value : Value} {values : List Value} {package : Ident}

namespace Idl

/-! ### The writes of a value -/

mutual

/-- The primitive values that are written for a value, in order. -/
def Value.writes : Value → List Value
  | .struct values => Value.writesAll values
  | .array values => .uint32 (UInt32.ofNat values.length) :: Value.writesAll values
  | value => [value]

def Value.writesAll : List Value → List Value
  | [] => []
  | value :: values => value.writes ++ Value.writesAll values

end

theorem Value.writes_of_primitive (hprimitive : value.isPrimitive = true) : value.writes = [value] := by
  cases value with
  | struct values => cases hprimitive
  | array values => cases hprimitive
  | _ => simp only [Value.writes]

theorem Value.mem_writesAll {written : Value} :
    written ∈ Value.writesAll values ↔ ∃ value ∈ values, written ∈ value.writes := by
  induction values with
  | nil => simp [Value.writesAll]
  | cons value values ih => simp [Value.writesAll, ih]

theorem Value.isPrimitive_of_mem_writes (value : Value) :
    ∀ written ∈ value.writes, written.isPrimitive = true := by
  induction value using Value.tree_induction with
  | primitive value hprimitive =>
    rw [Value.writes_of_primitive hprimitive]
    simpa using hprimitive
  | struct values ih =>
    intro written hwritten
    obtain ⟨value, hvalue, hwritten⟩ := Value.mem_writesAll.mp hwritten
    exact ih value hvalue written hwritten
  | array values ih =>
    intro written hwritten
    rcases mem_cons.mp hwritten with rfl | hwritten
    · rfl
    · obtain ⟨value, hvalue, hwritten⟩ := Value.mem_writesAll.mp hwritten
      exact ih value hvalue written hwritten

theorem Value.wireAll_eq_writes
    (hmembers : ∀ value ∈ values, value.wire = value.writes.flatMap Value.wire) :
    Value.wireAll values = (Value.writesAll values).flatMap Value.wire := by
  induction values with
  | nil => rfl
  | cons value values ih =>
    rw [Value.wireAll, Value.writesAll, flatMap_append, hmembers value mem_cons_self,
      ih fun v hv => hmembers v (mem_cons_of_mem _ hv)]

/-- The wire form is that of the writes, one after the other. -/
theorem Value.wire_eq_writes (value : Value) : value.wire = value.writes.flatMap Value.wire := by
  induction value using Value.tree_induction with
  | primitive value hprimitive => simp [Value.writes_of_primitive hprimitive]
  | struct values ih => rw [Value.wire, Value.writes, Value.wireAll_eq_writes ih]
  | array values ih =>
    rw [Value.wire, Value.writes, flatMap_cons, Value.wireAll_eq_writes ih, Value.wire,
      LittleEndian.encode_uint32]

/-- The writes of a value take as many bytes as its wire form. -/
theorem length_wire_eq_sum (value : Value) :
    value.wire.length = (value.writes.map fun written => written.wire.length).sum := by
  rw [value.wire_eq_writes, length_flatMap]

/-! ### Writes as steps -/

/-- One write on a buffer. -/
def writeStep (alloc : Allocator) (value : Value) (buf : Buffer) : Bool × Buffer :=
  writePrimitive alloc buf value

theorem writeStep_sticky (alloc : Allocator) (hprimitive : value.isPrimitive = true) :
    Step Buffer.writeFailed (writeStep alloc value) :=
  Buffer.Wrote.sticky (wrote_writePrimitive alloc hprimitive) (Value.wire_ne_nil hprimitive)

theorem writeSteps_sticky (alloc : Allocator)
    (hprimitive : ∀ value ∈ values, value.isPrimitive = true) :
    ∀ step ∈ values.map (writeStep alloc), Step Buffer.writeFailed step := by
  intro step hstep
  obtain ⟨value, hvalue, rfl⟩ := List.mem_map.mp hstep
  exact writeStep_sticky alloc (hprimitive value hvalue)

/-! ### The generated C++ code -/

section
variable {packages : Packages}

/-- Serializing a value makes its writes until one fails. -/
def RunsWrites (alloc : Allocator) (packages : Packages) (value : Value) : Prop :=
  ∀ {package : Ident} {type : TypeRef}, HasType packages package type value → ∀ buf : Buffer,
    (emitSerializeValue package type).exec alloc packages buf value =
      runUntilFailure (value.writes.map (writeStep alloc)) buf

theorem execFields_runs (hmembers : ∀ value ∈ values, RunsWrites alloc packages value) :
    ∀ {fields : List FieldDef}, FieldsHaveType packages package fields values → ∀ buf : Buffer,
      execFields alloc packages (genSerialize package fields) buf values =
        runUntilFailure ((Value.writesAll values).map (writeStep alloc)) buf := by
  induction values with
  | nil => exact fun _ _ => rfl
  | cons value values ih =>
    intro fields htyped buf
    obtain ⟨field, others, rfl, hvalue, hvalues⟩ := fieldsHaveType_cons.mp htyped
    rw [Value.writesAll, map_append, runUntilFailure_append,
      ← hmembers value mem_cons_self hvalue]
    simp only [genSerialize, map_cons, execFields]
    rcases (emitSerializeValue package field.type).exec alloc packages buf value with ⟨ok, middle⟩
    cases ok with
    | false => rfl
    | true => exact ih (fun v hv => hmembers v (mem_cons_of_mem _ hv)) hvalues middle

theorem execLoop_eq (element : TypeRef) (values : List Value) (buf : Buffer) :
    execLoop alloc packages (emitSerializeValue package element) buf values =
      execFields alloc packages (genSerialize package (repeated element values.length)) buf values := by
  induction values generalizing buf with
  | nil => rfl
  | cons value values ih =>
    simp only [execLoop, length_cons, repeated, replicate_succ, genSerialize, map_cons, execFields, ih]

theorem serialize_runs (alloc : Allocator) (value : Value) : RunsWrites alloc packages value := by
  induction value using Value.tree_induction with
  | primitive value hprimitive =>
    intro package type htyped buf
    rw [serialize_primitive hprimitive, Value.writes_of_primitive hprimitive]
    simp only [map_cons, map_nil, runUntilFailure, writeStep]
    rcases writePrimitive alloc buf value with ⟨ok, buf'⟩
    cases ok with
    | false => rfl
    | true => rfl
  | struct values ih =>
    intro package type htyped buf
    obtain ⟨given, name, fields, rfl, hfields, hvalues⟩ := hasType_struct.mp htyped
    simp only [emitSerializeValue, SerializeCode.exec, hfields, Value.writes]
    exact execFields_runs ih hvalues buf
  | array values ih =>
    intro package type htyped buf
    obtain ⟨element, rfl, hvalues⟩ := hasType_array.mp htyped
    simp only [emitSerializeValue, SerializeCode.exec, Value.writes, map_cons, runUntilFailure,
      writeStep, writePrimitive]
    rcases buf.writeUint32 alloc (UInt32.ofNat values.length) with ⟨ok, counted⟩
    cases ok with
    | false => rfl
    | true =>
      exact (execLoop_eq element values counted).trans
        (execFields_runs ih (fieldsHaveType_repeated.mpr hvalues) counted)

theorem puts_runUntilFailure (alloc : Allocator)
    (hprimitive : ∀ value ∈ values, value.isPrimitive = true) :
    Buffer.Puts alloc (runUntilFailure (values.map (writeStep alloc)))
      (∀ value ∈ values, tooLong value = false) (values.flatMap Value.wire) := by
  induction values with
  | nil => exact Buffer.Puts.nothing.congr (fun _ => rfl) (by simp)
  | cons value values ih =>
    refine ((puts_writePrimitive alloc (hprimitive value mem_cons_self)).andThen
      (ih fun v hv => hprimitive v (mem_cons_of_mem _ hv))).congr (fun buf => ?_) forall_mem_cons
    simp only [map_cons, runUntilFailure, writeStep]
    rcases writePrimitive alloc buf value with ⟨_ | _, middle⟩ <;> rfl

/-- Serializing a value puts its wire form, unless a text is too long. -/
theorem puts_serialize (alloc : Allocator) {type : TypeRef}
    (htyped : HasType packages package type value) :
    Buffer.Puts alloc ((emitSerializeValue package type).exec alloc packages · value)
      (∀ written ∈ value.writes, tooLong written = false) value.wire := by
  rw [value.wire_eq_writes]
  exact (puts_runUntilFailure alloc value.isPrimitive_of_mem_writes).congr
    (serialize_runs alloc value htyped) Iff.rfl

/-- What the generated C++ code leaves in the buffer. -/
theorem serialize_leaves (alloc : Allocator) {type : TypeRef}
    (htyped : HasType packages package type value) (buf : Buffer) :
    ((emitSerializeValue package type).exec alloc packages buf value).2 =
      runAll (value.writes.map (writeStep alloc)) buf := by
  rw [serialize_runs alloc value htyped buf]
  exact runUntilFailure_snd (writeSteps_sticky alloc value.isPrimitive_of_mem_writes) buf

end

end Idl

end OmniBinder
