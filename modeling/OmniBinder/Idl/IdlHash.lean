/-
Module: OmniBinder.Idl.IdlHash
Purpose: The compatibility hashes of `tools/omni_idlc/codegen.h`, written over any hasher: `hashTypeRef`
  with the set of types it has already expanded, `computeMethodHash` and `computeTopicHash`; the ids of
  methods and topics, and the stubs that `codegen_cpp.cpp`, `codegen_c_header.cpp` and
  `codegen_c_source.cpp` generate to dispatch calls by them.
Trusted boundary: human-reviewed spec
Main exports: computeTopicHash, methodId, cOnInvoke
-/
import OmniBinder.Idl.Ast

namespace OmniBinder.Idl

open OmniBinder

/-! ### FNV-1a -/

def fnv1aHash (text : Bytes) : UInt32 :=
  text.foldl (fun hash byte => (hash ^^^ byte.toUInt32) * 0x01000193) 0x811c9dc5

/-- Mix the four bytes of a value into a hash. -/
def fnv1aCombine (hash value : UInt32) : UInt32 :=
  let hash := (hash ^^^ (value &&& 0xFF)) * 0x01000193
  let hash := (hash ^^^ ((value >>> 8) &&& 0xFF)) * 0x01000193
  let hash := (hash ^^^ ((value >>> 16) &&& 0xFF)) * 0x01000193
  (hash ^^^ ((value >>> 24) &&& 0xFF)) * 0x01000193

def fnv1a : Hasher UInt32 := ⟨fnv1aHash, fnv1aCombine⟩

/-! ### Types -/

def primitiveHashName : PrimitiveType → Bytes
  | .bool => ascii "bool"
  | .int8 => ascii "int8"
  | .uint8 => ascii "uint8"
  | .int16 => ascii "int16"
  | .uint16 => ascii "uint16"
  | .int32 => ascii "int32"
  | .uint32 => ascii "uint32"
  | .int64 => ascii "int64"
  | .uint64 => ascii "uint64"
  | .float32 => ascii "float"
  | .float64 => ascii "double"
  | .string => ascii "string"
  | .bytes => ascii "bytes"

/-- The file in which a type of the given package is looked up: the current one if it is of that
    package. -/
def findTypeAst (owner : AstFile) (packages : Packages) (package : Ident) : Option AstFile :=
  if owner.packageName = package then some owner else packages.find package.val

/-- The qualified names of the types that have been expanded, the latest first. -/
abbrev Visited := List Bytes

section
variable {H : Type} (hasher : Hasher H)

/-- Hash the types in order, each mixed into the hash so far. -/
def hashFields (hashField : TypeRef → Visited → Option (H × Visited)) (hash : H) :
    List TypeRef → Visited → Option (H × Visited)
  | [], visited => some (hash, visited)
  | type :: types, visited =>
    match hashField type visited with
    | none => none
    | some (field, visited) => hashFields hashField (hasher.combine hash field) types visited

/-- A type outside of structs: the elements of arrays, and how a struct is hashed is given. -/
def hashShape (hashStruct : Ident → Ident → Visited → Option (H × Visited)) :
    TypeRef → Visited → Option (H × Visited)
  | .array element, visited =>
    match hashShape hashStruct element visited with
    | none => none
    | some (hash, visited) => some (hasher.combine (hasher.hash (ascii "[]")) hash, visited)
  | .bareArray, visited => some (hasher.hash (ascii "[]"), visited)
  | .custom given name, visited => hashStruct given name visited
  | .prim primitive, visited => some (hasher.hash (primitiveHashName primitive), visited)
  | .void, visited => some (hasher.hash (ascii "void"), visited)

/-- A struct: its qualified name, and its field types unless it has been expanded before. -/
def hashCustom (packages : Packages)
    (hashField : AstFile → TypeRef → Visited → Option (H × Visited)) (ast : AstFile)
    (given name : Ident) (visited : Visited) : Option (H × Visited) :=
  let package := resolvePackage ast.packageName given
  let fqn := qualify package name
  if fqn ∈ visited then some (hasher.hash fqn, visited)
  else
    match findTypeAst ast packages package with
    | none => some (hasher.hash fqn, visited)
    | some typeAst =>
      match typeAst.structs.find? fun definition => definition.name = name with
      | none => some (hasher.hash fqn, visited)
      | some definition =>
        hashFields hasher (hashField typeAst) (hasher.hash fqn)
          (definition.fields.map FieldDef.type) (fqn :: visited)

def hashTypeRef (packages : Packages) : Nat → AstFile → TypeRef → Visited → Option (H × Visited)
  | 0, _ => hashShape hasher fun _ _ _ => none
  | fuel + 1, ast => hashShape hasher (hashCustom hasher packages (hashTypeRef packages fuel) ast)

/-- The qualified names of the structs that can be expanded. -/
def structNames (ast : AstFile) (packages : Packages) : List Bytes :=
  (ast :: packages.table.toList.map Prod.snd).flatMap fun file =>
    file.structs.map fun definition => qualify file.packageName definition.name

/-- One more level than there are structs to expand. -/
def hashFuel (ast : AstFile) (packages : Packages) : Nat := (structNames ast packages).length + 1

def computeMethodHash (method : MethodDef) (ast : AstFile) (packages : Packages) : Option H :=
  let hashType := hashTypeRef hasher packages (hashFuel ast packages) ast
  let types := match method.param with
    | none => [method.returnType]
    | some param => [param.type, method.returnType]
  (hashFields hasher hashType (hasher.hash method.name.val) types []).map Prod.fst

def computeTopicHash (topic : TopicDef) (ast : AstFile) (packages : Packages) : Option H :=
  let hashType := hashTypeRef hasher packages (hashFuel ast packages) ast
  (hashFields hasher hashType (hasher.hash topic.name.val) (topic.fields.map FieldDef.type) []).map
    Prod.fst

end

def methodId (method : MethodDef) : UInt32 := fnv1aHash method.name.val

def topicId (topic : TopicDef) : UInt32 := fnv1aHash topic.name.val

/-- The method that a call reaches through the `switch` of the C++ `onInvoke`. A stub with two equal
    `case` labels does not compile. -/
def cppOnInvoke (service : ServiceDef) (id : UInt32) : Option MethodDef :=
  if (service.methods.map methodId).Nodup then
    service.methods.find? fun method => methodId method = id
  else none

/-! ### The macros of the C header -/

def isUpper (c : UInt8) : Bool := 0x41 ≤ c && c ≤ 0x5A

def toUpper (c : UInt8) : UInt8 := if 0x61 ≤ c && c ≤ 0x7A then c - 0x20 else c

/-- The part of a name that follows the given character. -/
def snakeCaseAfter (before : Option UInt8) : Bytes → Bytes
  | [] => []
  | c :: rest =>
    if isUpper c then
      (if before.any (!isUpper ·) then ascii "_" else []) ++ (c + 0x20) :: snakeCaseAfter (some c) rest
    else c :: snakeCaseAfter (some c) rest

def cToSnakeCase (name : Bytes) : Bytes := snakeCaseAfter none name

/-- The name that generated C code begins with. -/
def ownName (ast : AstFile) (name : Ident) : Bytes := ast.packageName.val ++ ascii "_" ++ name.val

def methodMacro (ast : AstFile) (service : ServiceDef) (method : MethodDef) : Bytes :=
  ownName ast service.name ++ ascii "_METHOD_" ++ (cToSnakeCase method.name.val).map toUpper

def proxyFunction (ast : AstFile) (service : ServiceDef) (method : MethodDef) : Bytes :=
  ownName ast service.name ++ ascii "_proxy_" ++ cToSnakeCase method.name.val

/-- A `#define`: the macro and its number. -/
abbrev Define := Bytes × Option UInt32

section
variable (packages : Packages) (ast : AstFile)

def topicDefines (topic : TopicDef) : List Define :=
  [(ownName ast topic.name ++ ascii "_TOPIC_ID", some (topicId topic)),
    (ownName ast topic.name ++ ascii "_TOPIC_IDL_HASH", computeTopicHash fnv1a topic ast packages)]

def serviceDefines (service : ServiceDef) : List Define :=
  (ownName ast service.name ++ ascii "_INTERFACE_ID",
      some (fnv1aHash (qualify ast.packageName service.name))) ::
    service.methods.map (fun method => (methodMacro ast service method, some (methodId method))) ++
    service.methods.map (fun method =>
      (methodMacro ast service method ++ ascii "_IDL_HASH", computeMethodHash fnv1a method ast packages)) ++
    [(ownName ast service.name ++ ascii "_PROXY_MAX_SUBSCRIPTIONS", some 8)]

/-- The definitions of `generateHeader`, in order. Those of the imported headers come before. -/
def headerDefines : List Define :=
  ast.topics.flatMap (topicDefines packages ast) ++ ast.services.flatMap (serviceDefines packages ast)

/-- What a macro of the header stands for in the source: its last definition, with a warning. -/
def macroValue (name : Bytes) : Option UInt32 :=
  ((headerDefines packages ast).reverse.find? fun define => define.1 = name).bind Prod.snd

/-- The method that a call reaches through the chain of comparisons in the C `_on_invoke`. -/
def cOnInvoke (service : ServiceDef) (id : UInt32) : Option MethodDef :=
  service.methods.find? fun method =>
    macroValue packages ast (methodMacro ast service method) = some id

end

end OmniBinder.Idl
