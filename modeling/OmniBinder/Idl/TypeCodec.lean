/-
Module: OmniBinder.Idl.TypeCodec
Purpose: The JSON values of `tools/omni_cli/simple_json.h` and the encoder of
  `tools/omni_cli/type_codec.cpp`, which interprets a type of the loaded packages on a JSON value.
Trusted boundary: human-reviewed spec
Main exports: Json, encodeToBuffer
-/
import Mathlib.Data.Rat.Floor
import OmniBinder.Idl.GeneratedCode

namespace OmniBinder.Idl

open OmniBinder

/-! ### JSON values -/

inductive Double where
  | finite (value : ℚ)
  | infinite (negative : Bool)
  | nan
deriving DecidableEq

/-- `static_cast<double>` of an integer: 53 bits are kept, ties go to the even neighbour. -/
def Double.roundInteger (number : Int) : Int :=
  let size := number.natAbs
  if size < 2 ^ 53 then number
  else
    let shift := size.log2 - 52
    let kept := size / 2 ^ shift
    let lost := size % 2 ^ shift
    let half := 2 ^ (shift - 1)
    let rounded := if lost > half ∨ (lost = half ∧ kept % 2 = 1) then kept + 1 else kept
    number.sign * (rounded * 2 ^ shift : Nat)

/-- `static_cast` of a `double` to an integer drops the fraction. -/
def Double.truncate : Double → Int
  | .finite value => value.num.tdiv value.den
  | _ => 0

/-- A number of the JSON text under its `NumberKind`. -/
inductive JsonNumber where
  | int (value : Int64)
  | uint (value : UInt64)
  | fp (value : Double)
deriving DecidableEq

namespace JsonNumber

def asNumber : JsonNumber → Double
  | .int value => .finite (Double.roundInteger value.toInt)
  | .uint value => .finite (Double.roundInteger value.toNat)
  | .fp value => value

def asInt64 : JsonNumber → Int64
  | .int value => value
  | .uint value => value.toInt64
  | .fp value => Int64.ofInt value.truncate

def asUint64 : JsonNumber → UInt64
  | .int value => value.toUInt64
  | .uint value => value
  | .fp value => UInt64.ofInt value.truncate

end JsonNumber

/-- `simple_json::Value`. An object is its map as a list of members with distinct keys. -/
inductive Json where
  | null
  | bool (value : Bool)
  | number (value : JsonNumber)
  | string (value : Bytes)
  | array (elements : List Json)
  | object (members : List (Bytes × Json))

/-- What an encoding step gives: the value, or the lines printed to `stderr`. -/
abbrev Encoding := Except (List Bytes)

def complain {α : Type} (line : Bytes) : Encoding α := .error [line]

/-! ### Numbers -/

/-- `checkFiniteNumber`. -/
def checkFiniteNumber (json : Json) (typeName : String) : Encoding (JsonNumber × ℚ) :=
  let refused : Encoding (JsonNumber × ℚ) :=
    complain (ascii "Error: Expected finite numeric value for " ++ ascii typeName)
  match json with
  | .number number =>
    match number.asNumber with
    | .finite value => .ok (number, value)
    | _ => refused
  | _ => refused

def checkIntegral (json : Json) (typeName : String) : Encoding (JsonNumber × ℚ) := do
  let (number, value) ← checkFiniteNumber json typeName
  if value.floor = value then return (number, value)
  else complain (ascii "Error: Non-integer value for " ++ ascii typeName)

def outOfRange {α : Type} (typeName : String) : Encoding α :=
  complain (ascii "Error: Value out of range for " ++ ascii typeName)

def checkIntegerRange (json : Json) (minValue maxValue : ℚ) (typeName : String) :
    Encoding JsonNumber := do
  let (number, value) ← checkIntegral json typeName
  if value < minValue ∨ value > maxValue then outOfRange typeName else return number

def checkIntegerRangeSafe (json : Json) (minInclusive maxExclusive : ℚ) (typeName : String) :
    Encoding JsonNumber := do
  let (number, value) ← checkIntegral json typeName
  if value < minInclusive ∨ value ≥ maxExclusive then outOfRange typeName else return number

/-- The `int64` case: the check depends on how the number is kept. -/
def checkInt64 (json : Json) : Encoding JsonNumber := do
  let (number, _) ← checkFiniteNumber json "int64"
  match number with
  | .uint value => if value.toNat > 2 ^ 63 - 1 then outOfRange "int64" else return number
  | .fp _ => checkIntegerRangeSafe json (-9223372036854775808) 9223372036854775808 "int64"
  | .int _ => return number

def checkUint64 (json : Json) : Encoding JsonNumber := do
  let (number, _) ← checkFiniteNumber json "uint64"
  match number with
  | .int value => if value.toInt < 0 then outOfRange "uint64" else return number
  | .fp _ => checkIntegerRangeSafe json 0 18446744073709551616 "uint64"
  | .uint _ => return number

/-! ### The encoder -/

def findStruct (packages : Packages) (name package : Ident) : Option StructDef :=
  match packages.find package.val with
  | none => none
  | some ast => ast.structs.find? fun definition => definition.name = name

section
variable (alloc : Allocator)

/-- `encodePrimitive`. The narrower integers go through `int64_t`; what a write answers is dropped. A
    floating-point number is written through a conversion that is a parameter. -/
def encodePrimitive (toFloat32 : Double → UInt32) (toFloat64 : Double → UInt64) (json : Json)
    (buf : Buffer) : PrimitiveType → Encoding Buffer
  | .bool =>
    match json with
    | .bool value => return (buf.writeBool alloc value).2
    | _ => complain (ascii "Error: Expected bool value")
  | .int8 => do
      let number ← checkIntegerRange json (-128) 127 "int8"
      return (buf.writeInt8 alloc number.asInt64.toInt8).2
  | .uint8 => do
      let number ← checkIntegerRange json 0 255 "uint8"
      return (buf.writeUint8 alloc number.asInt64.toUInt64.toUInt8).2
  | .int16 => do
      let number ← checkIntegerRange json (-32768) 32767 "int16"
      return (buf.writeInt16 alloc number.asInt64.toInt16).2
  | .uint16 => do
      let number ← checkIntegerRange json 0 65535 "uint16"
      return (buf.writeUint16 alloc number.asInt64.toUInt64.toUInt16).2
  | .int32 => do
      let number ← checkIntegerRange json (-2147483648) 2147483647 "int32"
      return (buf.writeInt32 alloc number.asInt64.toInt32).2
  | .uint32 => do
      let number ← checkIntegerRange json 0 4294967295 "uint32"
      return (buf.writeUint32 alloc number.asInt64.toUInt64.toUInt32).2
  | .int64 => do
      let number ← checkInt64 json
      return (buf.writeInt64 alloc number.asInt64).2
  | .uint64 => do
      let number ← checkUint64 json
      return (buf.writeUint64 alloc number.asUint64).2
  | .float32 => do
      let (number, _) ← checkFiniteNumber json "float32"
      return (buf.writeFloat32 alloc (toFloat32 number.asNumber)).2
  | .float64 => do
      let (number, _) ← checkFiniteNumber json "float64"
      return (buf.writeFloat64 alloc (toFloat64 number.asNumber)).2
  | .string =>
    match json with
    | .string value => return (buf.writeString alloc value).2
    | _ => complain (ascii "Error: Expected string value")
  | .bytes => complain (ascii "Error: bytes value is only supported as a hex string parameter")

variable (toFloat32 : Double → UInt32) (toFloat64 : Double → UInt64)

/-- `encodeToBuffer` on anything but an object for a struct that is found or an array for an array. -/
def encodeOther (packages : Packages) (type : TypeRef) (package : Ident) (buf : Buffer) (json : Json) :
    Encoding Buffer :=
  match type with
  | .custom given name =>
    let structPackage := resolvePackage package given
    match findStruct packages name structPackage with
    | none =>
      complain (ascii "Error: Cannot find struct " ++ name.val ++ ascii " in package " ++
        structPackage.val)
    | some _ => complain (ascii "Error: Expected JSON object for struct " ++ name.val)
  | .array _ => complain (ascii "Error: Expected JSON array")
  | .bareArray => complain (ascii "Error: Array type missing element type")
  | .prim primitive => encodePrimitive alloc toFloat32 toFloat64 json buf primitive
  | .void => .error []

mutual

/-- `encodeToBuffer` with the loop of `encodeStruct` over the fields and the start of `encodeArray`. -/
def encodeToBuffer (packages : Packages) (type : TypeRef) (package : Ident) (buf : Buffer) :
    Json → Encoding Buffer
  | .object members =>
    match type with
    | .custom given name =>
      match findStruct packages name (resolvePackage package given) with
      | some definition =>
        -- in the order of the definition, whatever the order of the members
        definition.fields.foldlM (fun buf field =>
          encodeField packages (resolvePackage package given) name field buf members) buf
      | none => encodeOther alloc toFloat32 toFloat64 packages type package buf (.object members)
    | _ => encodeOther alloc toFloat32 toFloat64 packages type package buf (.object members)
  | .array elements =>
    match type with
    | .array element =>
      encodeElements packages element package
        (buf.writeUint32 alloc (UInt32.ofNat elements.length)).2 elements
    | _ => encodeOther alloc toFloat32 toFloat64 packages type package buf (.array elements)
  | json => encodeOther alloc toFloat32 toFloat64 packages type package buf json

/-- One field of a struct: its member is searched by name. -/
def encodeField (packages : Packages) (package owner : Ident) (field : FieldDef) (buf : Buffer) :
    List (Bytes × Json) → Encoding Buffer
  | [] =>
    complain (ascii "Error: Missing field '" ++ field.name.val ++ ascii "' in struct " ++ owner.val)
  | (key, json) :: members =>
    if key = field.name.val then
      (encodeToBuffer packages field.type package buf json).mapError fun lines =>
        lines ++ [ascii "Error: Failed to encode field '" ++ field.name.val ++ ascii "' of struct " ++
          owner.val]
    else encodeField packages package owner field buf members

/-- The elements of an array, one after the other. -/
def encodeElements (packages : Packages) (element : TypeRef) (package : Ident) (buf : Buffer) :
    List Json → Encoding Buffer
  | [] => .ok buf
  | json :: elements => do
      let buf ← encodeToBuffer packages element package buf json
      encodeElements packages element package buf elements

end

end

end OmniBinder.Idl
