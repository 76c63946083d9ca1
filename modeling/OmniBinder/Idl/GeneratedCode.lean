/-
Module: OmniBinder.Idl.GeneratedCode
Purpose: The C++ codecs and the declarations of the C++ header that `tools/omni_idlc/codegen_cpp.cpp`
  generates, and the C serializers of `codegen_c_source.cpp`. A compiler reads the header from the top: a
  class of the same namespace is declared before a member uses it.
Trusted boundary: human-reviewed spec
Main exports: Value, DeserializeCode.exec, cSerialize, declaredBeforeUse
-/
import OmniBinder.Core.Buffer
import OmniBinder.Idl.Ast

namespace OmniBinder.Idl

open OmniBinder

/-! ### Values -/

inductive Value where
  | bool (value : Bool)
  | int8 (value : Int8)
  | uint8 (value : UInt8)
  | int16 (value : Int16)
  | uint16 (value : UInt16)
  | int32 (value : Int32)
  | uint32 (value : UInt32)
  | int64 (value : Int64)
  | uint64 (value : UInt64)
  | float32 (bits : UInt32)
  | float64 (bits : UInt64)
  | string (value : Bytes)
  | bytes (value : Bytes)
  | struct (fields : List Value)
  | array (elements : List Value)

/-- The fields of a generated class: of the struct of that name, or of the topic. -/
def classFields (packages : Packages) (package name : Ident) : Option (List FieldDef) :=
  match packages.find package.val with
  | none => none
  | some ast =>
    match ast.structs.find? fun definition => definition.name = name with
    | some definition => some definition.fields
    | none => (ast.topics.find? fun topic => topic.name = name).map TopicDef.fields

mutual

/-- The value is one of the C++ type generated for a type of the given package. -/
def HasType (packages : Packages) (package : Ident) (type : TypeRef) : Value → Prop
  | .bool _ => type = .prim .bool
  | .int8 _ => type = .prim .int8
  | .uint8 _ => type = .prim .uint8
  | .int16 _ => type = .prim .int16
  | .uint16 _ => type = .prim .uint16
  | .int32 _ => type = .prim .int32
  | .uint32 _ => type = .prim .uint32
  | .int64 _ => type = .prim .int64
  | .uint64 _ => type = .prim .uint64
  | .float32 _ => type = .prim .float32
  | .float64 _ => type = .prim .float64
  | .string _ => type = .prim .string
  | .bytes _ => type = .prim .bytes
  | .struct values =>
    match type with
    | .custom given name =>
      match classFields packages (resolvePackage package given) name with
      | some fields => FieldsHaveType packages (resolvePackage package given) fields values
      | none => False
    | _ => False
  | .array values =>
    match type with
    | .array element => AllHaveType packages package element values
    | _ => False

/-- A value for each field, in order. -/
def FieldsHaveType (packages : Packages) (package : Ident) (fields : List FieldDef) :
    List Value → Prop
  | [] => fields = []
  | value :: values =>
    match fields with
    | field :: fields =>
      HasType packages package field.type value ∧ FieldsHaveType packages package fields values
    | [] => False

/-- Every element has the type. -/
def AllHaveType (packages : Packages) (package : Ident) (type : TypeRef) : List Value → Prop
  | [] => True
  | value :: values => HasType packages package type value ∧ AllHaveType packages package type values

end

/-! ### Serializing -/

/-- The statements for one value: a typed write, a call of the member function of a generated class, or
    a count followed by a loop over the elements. -/
inductive SerializeCode where
  | nothing
  | write (primitive : PrimitiveType)
  | callSerialize (package name : Ident)
  | loop (body : SerializeCode)

def emitSerializeValue (package : Ident) : TypeRef → SerializeCode
  | .prim primitive => .write primitive
  | .custom given name => .callSerialize (resolvePackage package given) name
  | .array element => .loop (emitSerializeValue package element)
  | .void => .nothing
  | .bareArray => .nothing

/-- The body of `serialize`: the fields in order. -/
def genSerialize (package : Ident) (fields : List FieldDef) : List SerializeCode :=
  fields.map fun field => emitSerializeValue package field.type

section
variable (alloc : Allocator)

/-- The typed write of a primitive value. -/
def writePrimitive (buf : Buffer) : Value → Bool × Buffer
  | .bool value => buf.writeBool alloc value
  | .int8 value => buf.writeInt8 alloc value
  | .uint8 value => buf.writeUint8 alloc value
  | .int16 value => buf.writeInt16 alloc value
  | .uint16 value => buf.writeUint16 alloc value
  | .int32 value => buf.writeInt32 alloc value
  | .uint32 value => buf.writeUint32 alloc value
  | .int64 value => buf.writeInt64 alloc value
  | .uint64 value => buf.writeUint64 alloc value
  | .float32 bits => buf.writeFloat32 alloc bits
  | .float64 bits => buf.writeFloat64 alloc bits
  | .string value => buf.writeString alloc value
  | .bytes value => buf.writeBytes alloc value
  | .struct _ => (false, buf)
  | .array _ => (false, buf)

mutual

/-- Run the statements on a value. The first failing write ends it. -/
def SerializeCode.exec (packages : Packages) (code : SerializeCode) (buf : Buffer) :
    Value → Bool × Buffer
  | .struct values =>
    match code with
    | .callSerialize package name =>
      match classFields packages package name with
      | none => (false, buf)
      | some fields => execFields packages (genSerialize package fields) buf values
    | _ => (false, buf)
  | .array values =>
    match code with
    | .loop body =>
      match buf.writeUint32 alloc (UInt32.ofNat values.length) with
      | (false, buf) => (false, buf)
      | (true, buf) => execLoop packages body buf values
    | _ => (false, buf)
  | value => writePrimitive alloc buf value

/-- One field after the other. -/
def execFields (packages : Packages) (codes : List SerializeCode) (buf : Buffer) :
    List Value → Bool × Buffer
  | [] => (true, buf)
  | value :: values =>
    match codes with
    | [] => (true, buf)
    | code :: codes =>
      match code.exec packages buf value with
      | (false, buf) => (false, buf)
      | (true, buf) => execFields packages codes buf values

/-- One element after the other. -/
def execLoop (packages : Packages) (body : SerializeCode) (buf : Buffer) :
    List Value → Bool × Buffer
  | [] => (true, buf)
  | value :: values =>
    match body.exec packages buf value with
    | (false, buf) => (false, buf)
    | (true, buf) => execLoop packages body buf values

end

end

/-! ### Deserializing -/

def minimumWireSize : TypeRef → Nat
  | .prim .bool => 1
  | .prim .int8 => 1
  | .prim .uint8 => 1
  | .prim .int16 => 2
  | .prim .uint16 => 2
  | .prim .int32 => 4
  | .prim .uint32 => 4
  | .prim .float32 => 4
  | .prim .string => 4
  | .prim .bytes => 4
  | .array _ => 4
  | .bareArray => 4
  | .prim .int64 => 8
  | .prim .uint64 => 8
  | .prim .float64 => 8
  | .void => 0
  | .custom _ _ => 0

/-- The statements that read one value. The loop carries the smallest size of an element on the wire and
    the C++ type of an element, of which the code takes the `sizeof`. -/
inductive DeserializeCode where
  | nothing
  | read (primitive : PrimitiveType)
  | callDeserialize (package name : Ident)
  | loop (minWireSize : Nat) (package : Ident) (element : TypeRef) (body : DeserializeCode)

def emitDeserializeValue (package : Ident) : TypeRef → DeserializeCode
  | .prim primitive => .read primitive
  | .custom given name => .callDeserialize (resolvePackage package given) name
  | .array element =>
    .loop (minimumWireSize element) package element (emitDeserializeValue package element)
  | .void => .nothing
  | .bareArray => .nothing

def genDeserialize (package : Ident) (fields : List FieldDef) : List DeserializeCode :=
  fields.map fun field => emitDeserializeValue package field.type

def tryReadInt8 : View Int8 := View.ofRead BufferRead.readInt8

def tryReadInt16 : View Int16 := View.ofRead BufferRead.readInt16

def tryReadInt32 : View Int32 := View.ofRead BufferRead.readInt32

def tryReadInt64 : View Int64 := View.ofRead BufferRead.readInt64

def tryReadFloat32 : View UInt32 := View.ofRead BufferRead.readFloat32

def tryReadFloat64 : View UInt64 := View.ofRead BufferRead.readFloat64

def tryReadBytes : View Bytes := View.ofRead BufferRead.readBytes

/-- The typed read of a primitive value. -/
def readPrimitive : PrimitiveType → View Value
  | .bool => do return .bool (← tryReadBool)
  | .int8 => do return .int8 (← tryReadInt8)
  | .uint8 => do return .uint8 (← tryReadUint8)
  | .int16 => do return .int16 (← tryReadInt16)
  | .uint16 => do return .uint16 (← tryReadUint16)
  | .int32 => do return .int32 (← tryReadInt32)
  | .uint32 => do return .uint32 (← tryReadUint32)
  | .int64 => do return .int64 (← tryReadInt64)
  | .uint64 => do return .uint64 (← tryReadUint64)
  | .float32 => do return .float32 (← tryReadFloat32)
  | .float64 => do return .float64 (← tryReadFloat64)
  | .string => do return .string (← tryReadString)
  | .bytes => do return .bytes (← tryReadBytes)

/-- What comes of reading: the bound on the nesting was too small, the read failed, or it yielded a
    value and left some bytes. -/
inductive Outcome (α : Type) where
  | outOfFuel
  | failed
  | ok (value : α) (rest : Bytes)

namespace Outcome

variable {α β : Type}

def ofOption : Option (α × Bytes) → Outcome α
  | none => .failed
  | some (value, rest) => .ok value rest

/-- Go on with what was read. -/
def bind (outcome : Outcome α) (next : α → Bytes → Outcome β) : Outcome β :=
  match outcome with
  | .outOfFuel => .outOfFuel
  | .failed => .failed
  | .ok value rest => next value rest

end Outcome

/-- The fields of a class, in order. -/
def readFields (read : DeserializeCode → Bytes → Outcome Value) :
    List DeserializeCode → Bytes → Outcome (List Value)
  | [], view => .ok [] view
  | code :: codes, view =>
    (read code view).bind fun value view =>
      (readFields read codes view).bind fun values view => .ok (value :: values) view

/-- The elements of an array. -/
def readElements (read : Bytes → Outcome Value) : Nat → Bytes → Outcome (List Value)
  | 0, view => .ok [] view
  | count + 1, view =>
    (read view).bind fun value view =>
      (readElements read count view).bind fun values view => .ok (value :: values) view

/-- The checks on an element count, in the order of the generated code. -/
def countAccepted (sizeof : Ident → TypeRef → Nat) (minWireSize : Nat) (package : Ident)
    (element : TypeRef) (count remaining : Nat) : Bool :=
  if count > maxArrayElements then false
  else if minWireSize ≠ 0 ∧ count > remaining / minWireSize then false
  else if minWireSize = 0 ∧ count > maxZeroWireArrayElements then false
  else if count > maxMessageSize / sizeof package element then false
  else true

/-- Run the statements on the unread bytes of a buffer. -/
def DeserializeCode.exec (sizeof : Ident → TypeRef → Nat) (packages : Packages) :
    Nat → DeserializeCode → Bytes → Outcome Value
  | 0, _, _ => .outOfFuel
  | fuel + 1, code, view =>
    match code with
    | .nothing => .ok (.struct []) view
    | .read primitive => Outcome.ofOption (readPrimitive primitive view)
    | .callDeserialize package name =>
      match classFields packages package name with
      | none => .failed
      | some fields =>
        (readFields (exec sizeof packages fuel) (genDeserialize package fields) view).bind
          fun values view => .ok (.struct values) view
    | .loop minWireSize package element body =>
      (Outcome.ofOption (tryReadUint32 view)).bind fun count view =>
        if countAccepted sizeof minWireSize package element count.toNat view.length then
          (readElements (exec sizeof packages fuel body) count.toNat view).bind
            fun values view => .ok (.array values) view
        else .failed

/-! ### Names -/

def primitiveToken : PrimitiveType → Bytes
  | .bool => ascii "bool"
  | .int8 => ascii "int8_t"
  | .uint8 => ascii "uint8_t"
  | .int16 => ascii "int16_t"
  | .uint16 => ascii "uint16_t"
  | .int32 => ascii "int32_t"
  | .uint32 => ascii "uint32_t"
  | .int64 => ascii "int64_t"
  | .uint64 => ascii "uint64_t"
  | .float32 => ascii "float"
  | .float64 => ascii "double"
  | .string => ascii "string"
  | .bytes => ascii "bytes"

/-- The name of a generated struct and of its functions: the package that is meant, then the name. -/
def cTypePrefix (package given name : Ident) : Bytes :=
  (resolvePackage package given).val ++ ascii "_" ++ name.val

def cTypeToken (package : Ident) : TypeRef → Bytes
  | .prim primitive => primitiveToken primitive
  | .void => ascii "void"
  | .custom given name => cTypePrefix package given name
  | .array element => cTypeToken package element ++ ascii "_array"
  | .bareArray => ascii "void_array"

def cArrayTypeName (package : Ident) (type : TypeRef) : Bytes :=
  package.val ++ ascii "_" ++ cTypeToken package type

def cTypeName (package : Ident) : TypeRef → Bytes
  | .prim .bool => ascii "uint8_t"
  | .prim .string => ascii "char*"
  | .prim .bytes => ascii "uint8_t*"
  | .prim primitive => primitiveToken primitive
  | .void => ascii "void"
  | .custom given name => cTypePrefix package given name
  | .array element => cArrayTypeName package (.array element)
  | .bareArray => cArrayTypeName package .bareArray

/-! ### Generated functions -/

/-- The statement for one value: nothing, an `omni_buffer_write_*` call, or a call of the `_serialize`
    function of a generated type. -/
inductive CCode where
  | nothing
  | write (primitive : PrimitiveType)
  | call (typeName : Bytes)
deriving DecidableEq

def emitValueSerialize (package : Ident) : TypeRef → CCode
  | .array element => .call (cArrayTypeName package (.array element))
  | .bareArray => .call (cArrayTypeName package .bareArray)
  | .custom given name => .call (cTypePrefix package given name)
  | .prim primitive => .write primitive
  | .void => .nothing

/-- The body of a `_serialize` function: the fields in order, or the count and a loop over the
    elements. -/
inductive CFunction where
  | fields (body : List CCode)
  | elements (body : CCode)
deriving DecidableEq

/-- An array type is added to those collected before, unless its name is taken. -/
def addArrayType (package : Ident) (arrays : List TypeRef) (type : TypeRef) : List TypeRef :=
  if arrays.any fun other => cArrayTypeName package other = cArrayTypeName package type
  then arrays else arrays ++ [type]

/-- The array types in a type, inner ones first. -/
def collectArrayTypes (package : Ident) (arrays : List TypeRef) : TypeRef → List TypeRef
  | .array element =>
    addArrayType package (collectArrayTypes package arrays element) (.array element)
  | .bareArray => addArrayType package arrays .bareArray
  | _ => arrays

/-- The return type of a method and the type of its parameter. -/
def MethodDef.signature (method : MethodDef) : List TypeRef :=
  method.returnType :: method.param.toList.map ParamDef.type

/-- The types a file uses, in the order in which they are searched for array types. -/
def AstFile.types (ast : AstFile) : List TypeRef :=
  (ast.structs.flatMap fun definition => definition.fields.map FieldDef.type) ++
    (ast.topics.flatMap fun topic => topic.fields.map FieldDef.type) ++
    ast.services.flatMap fun service => service.methods.flatMap MethodDef.signature

def collectArrayTypesFromAst (ast : AstFile) : List TypeRef :=
  ast.types.foldl (collectArrayTypes ast.packageName) []

/-- An array without an element type has no definition that could be generated; it cannot be parsed. -/
def emitArraySerialize (package : Ident) : TypeRef → CFunction
  | .array element => .elements (emitValueSerialize package element)
  | _ => .elements .nothing

def emitStructSerialize (package : Ident) (fields : List FieldDef) : CFunction :=
  .fields (fields.map fun field => emitValueSerialize package field.type)

/-- Functions under the name of the type they serialize. -/
abbrev CProgram := List (Bytes × CFunction)

/-- `generateSource` of a file: arrays, then structs, then topics. -/
def generateSource (ast : AstFile) : CProgram :=
  let ownName (name : Ident) := ast.packageName.val ++ ascii "_" ++ name.val
  (collectArrayTypesFromAst ast).map (fun type =>
      (cArrayTypeName ast.packageName type, emitArraySerialize ast.packageName type)) ++
    ast.structs.map (fun definition =>
      (ownName definition.name, emitStructSerialize ast.packageName definition.fields)) ++
    ast.topics.map fun topic =>
      (ownName topic.name, emitStructSerialize ast.packageName topic.fields)

/-- The sources of all packages, as they are linked into one program. -/
def cProgram (packages : Packages) : CProgram :=
  packages.table.toList.flatMap fun (_, ast) => generateSource ast

/-- No two functions have one name; otherwise the compiler or the linker rejects the program. -/
def CProgram.Builds (program : CProgram) : Prop := (program.map Prod.fst).Nodup

instance (program : CProgram) : Decidable program.Builds := inferInstanceAs (Decidable (List.Nodup _))

def CProgram.function (program : CProgram) (name : Bytes) : Option CFunction :=
  (program.find? fun entry => entry.1 = name).map Prod.snd

/-! ### Running them -/

/-- The number of bytes before the first NUL byte. -/
def strlen (content : Bytes) : Nat := (content.takeWhile (· ≠ 0)).length

/-- What a write is given: of a string as many bytes as `(uint32_t)strlen` says. -/
def cArgument : Value → Value
  | .string content => .string (content.take (strlen content % 2 ^ 32))
  | value => value

/-- The primitive type whose C variable can hold the value. -/
def Value.primitive : Value → Option PrimitiveType
  | .bool _ => some .bool
  | .int8 _ => some .int8
  | .uint8 _ => some .uint8
  | .int16 _ => some .int16
  | .uint16 _ => some .uint16
  | .int32 _ => some .int32
  | .uint32 _ => some .uint32
  | .int64 _ => some .int64
  | .uint64 _ => some .uint64
  | .float32 _ => some .float32
  | .float64 _ => some .float64
  | .string _ => some .string
  | .bytes _ => some .bytes
  | .struct _ => none
  | .array _ => none

section
variable (alloc : Allocator)

mutual

/-- Run the statement on a value; `none` when the code is not made for a value of that kind. The answers
    of the writes are dropped. -/
def CCode.exec (program : CProgram) (code : CCode) (buf : Buffer) : Value → Option Buffer
  | .struct values =>
    match code with
    | .nothing => some buf
    | .write _ => none
    | .call typeName =>
      match program.function typeName with
      | some (.fields body) => execCFields program body buf values
      | _ => none
  | .array values =>
    match code with
    | .nothing => some buf
    | .write _ => none
    | .call typeName =>
      match program.function typeName with
      | some (.elements body) =>
        execCElements program body (buf.writeUint32 alloc (UInt32.ofNat values.length)).2 values
      | _ => none
  | value =>
    match code with
    | .nothing => some buf
    | .write primitive =>
      if value.primitive = some primitive then
        some (writePrimitive alloc buf (cArgument value)).2
      else none
    | .call _ => none

/-- One field after the other. -/
def execCFields (program : CProgram) (body : List CCode) (buf : Buffer) :
    List Value → Option Buffer
  | [] => some buf
  | value :: values =>
    match body with
    | [] => some buf
    | code :: body =>
      match code.exec program buf value with
      | none => none
      | some buf => execCFields program body buf values

/-- One element after the other. -/
def execCElements (program : CProgram) (body : CCode) (buf : Buffer) : List Value → Option Buffer
  | [] => some buf
  | value :: values =>
    match body.exec program buf value with
    | none => none
    | some buf => execCElements program body buf values

end

/-- The generated C code for a value of a type of the package. -/
def cSerialize (packages : Packages) (package : Ident) (type : TypeRef) (buf : Buffer) (value : Value) :
    Option Buffer :=
  if (cProgram packages).Builds then
    (emitValueSerialize package type).exec alloc (cProgram packages) buf value
  else none

end

/-- The name of a C++ type: one of the language or its library, a generated class with or without its
    namespace, or a vector. -/
inductive CppType where
  | plain (text : String)
  | generated (package name : Ident)
  | vector (element : CppType)
deriving DecidableEq

def cppTypeName : TypeRef → CppType
  | .prim .bool => .plain "bool"
  | .prim .int8 => .plain "int8_t"
  | .prim .uint8 => .plain "uint8_t"
  | .prim .int16 => .plain "int16_t"
  | .prim .uint16 => .plain "uint16_t"
  | .prim .int32 => .plain "int32_t"
  | .prim .uint32 => .plain "uint32_t"
  | .prim .int64 => .plain "int64_t"
  | .prim .uint64 => .plain "uint64_t"
  | .prim .float32 => .plain "float"
  | .prim .float64 => .plain "double"
  | .prim .string => .plain "std::string"
  | .prim .bytes => .vector (.plain "uint8_t")
  | .void => .plain "void"
  | .custom package name => .generated package name
  | .array element => .vector (cppTypeName element)
  | .bareArray => .vector (.plain "void*")

/-- A class definition of the header. -/
structure CppClass where
  name : Ident
  members : List (CppType × Ident)
deriving DecidableEq

inductive HeaderItem where
  | struct (definition : CppClass)
  | topic (definition : CppClass)
  | stub (service : Ident)
  | proxy (service : Ident)
deriving DecidableEq

def emitStructFields (name : Ident) (fields : List FieldDef) : CppClass where
  name := name
  members := fields.map fun field => (cppTypeName field.type, field.name)

def genStruct (definition : StructDef) : HeaderItem :=
  .struct (emitStructFields definition.name definition.fields)

def genTopic (topic : TopicDef) : HeaderItem := .topic (emitStructFields topic.name topic.fields)

/-- The structs, the topics, and for each service its stub and its proxy. -/
def generateHeader (ast : AstFile) : List HeaderItem :=
  ast.structs.map genStruct ++ ast.topics.map genTopic ++
    ast.services.flatMap fun service => [.stub service.name, .proxy service.name]

/-! ### Names in the header -/

/-- The classes of the given namespace that a type name mentions. -/
def CppType.usedNames (package : Ident) : CppType → List Ident
  | .plain _ => []
  | .generated given name => if resolvePackage package given = package then [name] else []
  | .vector element => element.usedNames package

/-- The classes of the given namespace that the members of a class mention. -/
def CppClass.usedNames (package : Ident) (definition : CppClass) : List Ident :=
  definition.members.flatMap fun member => member.1.usedNames package

/-- Reading the header from the top with the structs declared so far: every class of the namespace that
    the members of a struct or topic mention is a declared struct, or the struct itself. -/
def declaredBeforeUse (package : Ident) : List Ident → List HeaderItem → Bool
  | _, [] => true
  | declared, .struct definition :: items =>
    (definition.usedNames package).all (· ∈ definition.name :: declared) &&
      declaredBeforeUse package (definition.name :: declared) items
  | declared, .topic definition :: items =>
    (definition.usedNames package).all (· ∈ declared) && declaredBeforeUse package declared items
  | declared, .stub _ :: items => declaredBeforeUse package declared items
  | declared, .proxy _ :: items => declaredBeforeUse package declared items

end OmniBinder.Idl
