/-
Module: OmniBinder.Idl.SemanticValidator
Purpose: `validateSemantics` of `tools/omni_idlc/semantic_validator.cpp` with all its checks in order
  and the text of every error: declarations and their names, visibility through imports, value types,
  fields, methods and publications, the order of the structs of a file, and by-value cycles across
  packages.
Trusted boundary: human-reviewed spec
Main exports: Check, validateSemantics
-/
import OmniBinder.Idl.Ast
import OmniBinder.Lib.DepthFirst

namespace OmniBinder.Idl

open OmniBinder

def idlcMaxSemanticTraversal : Nat := 1048576

def idlcMaxStructDependencyDepth : Nat := 64

/-- A check passes or ends with an error text; the state counts the steps of all traversals. -/
abbrev Check := StateT Nat (Except Bytes)

def traversalLimitExceeded : Bytes := ascii "semantic traversal limit exceeded"

/-- `++traversal > IDLC_MAX_SEMANTIC_TRAVERSAL`. -/
def tick : Check Unit := do
  let traversal ← get
  if traversal + 1 > idlcMaxSemanticTraversal then throw traversalLimitExceeded
  else set (traversal + 1)

/-! ### Names -/

def isReservedGeneratedName (name : Ident) : Bool :=
  name.val ∈ ["p", "req", "resp", "result", "result_len", "out", "user_data", "stub_data"].map ascii

def languageKeywords : List String :=
  ["asm", "auto", "bool", "break", "case", "catch", "char", "class", "const", "const_cast",
    "continue", "default", "delete", "do", "double", "dynamic_cast", "else", "enum", "explicit",
    "export", "extern", "false", "float", "for", "friend", "goto", "if", "inline", "int", "long",
    "mutable", "namespace", "new", "operator", "private", "protected", "public", "register",
    "reinterpret_cast", "return", "short", "signed", "sizeof", "static", "static_cast", "struct",
    "switch", "template", "this", "throw", "true", "try", "typedef", "typeid", "typename", "union",
    "unsigned", "using", "virtual", "void", "volatile", "wchar_t", "while"]

def isLanguageKeyword (name : Ident) : Bool := name.val ∈ languageKeywords.map ascii

def isReservedStructMember (name : Ident) : Bool :=
  name.val = ascii "serialize" || name.val = ascii "deserialize"

/-- The generated C struct adds a length member next to a string or a byte array. -/
def hasLengthMember : TypeRef → Bool
  | .prim .string => true
  | .prim .bytes => true
  | _ => false

/-- `owner 'name' field 'field'`, the start of many error texts. -/
def fieldText (kind : String) (owner field : Ident) : Bytes :=
  ascii kind ++ ascii " '" ++ owner.val ++ ascii "' field '" ++ field.val ++ ascii "'"

def validateFieldNames (kind : String) (owner : Ident) (fields : List FieldDef) : Check Unit :=
  fields.forM fun field => do
    if isLanguageKeyword field.name || isReservedStructMember field.name then
      throw (fieldText kind owner field.name ++ ascii " is reserved by generated code")
    if hasLengthMember field.type &&
        fields.any (fun other => other.name.val = field.name.val ++ ascii "_len") then
      throw (fieldText kind owner field.name ++
        ascii " collides with generated '<field>_len' member")

/-! ### Declarations -/

inductive DeclarationKind where
  | struct
  | topic
  | service
deriving DecidableEq, Repr

abbrev DeclarationMap := Table Bytes DeclarationKind

def addDeclaration (ast : AstFile) (kind : DeclarationKind) (declarations : DeclarationMap)
    (name : Ident) : Check DeclarationMap := do
  let qualified := qualify ast.packageName name
  if isLanguageKeyword name then
    throw (ascii "declaration name '" ++ qualified ++ ascii "' is a language keyword")
  if declarations.contains qualified then
    throw (ascii "duplicate declaration '" ++ qualified ++ ascii "'")
  return declarations.insert qualified kind

/-- Structs first, then topics, then services. -/
def collectDeclarations (ast : AstFile) (declarations : DeclarationMap) : Check DeclarationMap := do
  let declarations ← (ast.structs.map StructDef.name).foldlM (addDeclaration ast .struct) declarations
  let declarations ← (ast.topics.map TopicDef.name).foldlM (addDeclaration ast .topic) declarations
  (ast.services.map ServiceDef.name).foldlM (addDeclaration ast .service) declarations

/-- The packages reachable through imports. Every call counts, so the depth left never runs out before
    the count does. -/
def collectVisiblePackages (packages : Packages) :
    Nat → Table Bytes Unit → Ident → Check (Table Bytes Unit)
  | 0, _, _ => throw traversalLimitExceeded
  | depth + 1, visible, name => do
      tick
      if visible.contains name.val then return visible
      let visible := visible.insert name.val ()
      match packages.find name.val with
      | none => return visible
      | some ast =>
        ast.importedPackages.foldlM (fun visible imported => do
          if (packages.find imported.val).isNone then
            throw (ascii "package '" ++ name.val ++ ascii "' has unresolved import package '" ++
              imported.val ++ ascii "'")
          collectVisiblePackages packages depth visible imported) visible

def buildVisibleDeclarations (ast : AstFile) (packages : Packages) : Check DeclarationMap := do
  let visible ←
    collectVisiblePackages packages (idlcMaxSemanticTraversal + 1) ∅ ast.packageName
  (visible.toList.map Prod.fst).foldlM (fun declarations name =>
    match packages.find name with
    | none => pure declarations
    | some ast => collectDeclarations ast declarations) ∅

/-! ### Types and members -/

def validateValueType (ast : AstFile) (declarations : DeclarationMap) (allowVoid : Bool)
    (nesting : Nat) (location : Bytes) (type : TypeRef) : Check Unit := do
  tick
  if nesting ≥ idlcMaxTypeNesting then throw (location ++ ascii " exceeds type nesting limit")
  match type with
  | .void => if allowVoid then return () else throw (location ++ ascii " cannot use void")
  | .bareArray => throw (location ++ ascii " has an array with no element type")
  | .array element =>
    validateValueType ast declarations false (nesting + 1) (location ++ ascii " array element")
      element
  | .prim _ => return ()
  | .custom package name =>
    let qualified := qualify (resolvePackage ast.packageName package) name
    match declarations[qualified]? with
    | none =>
      throw (location ++ ascii " references unknown or non-imported type '" ++ qualified ++
        ascii "'")
    | some .struct => return ()
    | some _ =>
      throw (location ++ ascii " references non-struct type '" ++ qualified ++ ascii "'")

/-- The fields of a struct or topic, one after the other, with the names seen so far. -/
def validateFields (ast : AstFile) (declarations : DeclarationMap) (kind : String) (owner : Ident) :
    List Bytes → List FieldDef → Check Unit
  | _, [] => return ()
  | seen, field :: fields => do
      if field.name.val ∈ seen then
        throw (ascii kind ++ ascii " '" ++ owner.val ++ ascii "' has duplicate field '" ++
          field.name.val ++ ascii "'")
      validateValueType ast declarations false 0 (fieldText kind owner field.name) field.type
      validateFields ast declarations kind owner (field.name.val :: seen) fields

def validateMembers (ast : AstFile) (declarations : DeclarationMap) (kind : String) (owner : Ident)
    (fields : List FieldDef) : Check Unit := do
  validateFields ast declarations kind owner [] fields
  validateFieldNames kind owner fields

def serviceText (service : ServiceDef) : Bytes :=
  ascii "service '" ++ service.name.val ++ ascii "'"

def validateMethod (ast : AstFile) (declarations : DeclarationMap) (service : ServiceDef)
    (method : MethodDef) : Check Unit := do
  let text := serviceText service ++ ascii " method '" ++ method.name.val ++ ascii "'"
  if isLanguageKeyword method.name then
    throw (serviceText service ++ ascii " method name '" ++ method.name.val ++
      ascii "' is a language keyword")
  match method.param with
  | none => validateValueType ast declarations true 0 (text ++ ascii " return type") method.returnType
  | some param =>
    let paramText := ascii " parameter '" ++ param.name.val ++ ascii "'"
    if isReservedGeneratedName param.name || isLanguageKeyword param.name then
      throw (text ++ ascii " parameter name '" ++ param.name.val ++
        ascii "' is reserved by generated code")
    validateValueType ast declarations true 0 (text ++ ascii " return type") method.returnType
    validateValueType ast declarations false 0 (text ++ paramText) param.type

def validateMethods (ast : AstFile) (declarations : DeclarationMap) (service : ServiceDef) :
    List Bytes → List MethodDef → Check Unit
  | _, [] => return ()
  | seen, method :: methods => do
      if method.name.val ∈ seen then
        throw (serviceText service ++ ascii " has duplicate method '" ++ method.name.val ++
          ascii "'")
      validateMethod ast declarations service method
      validateMethods ast declarations service (method.name.val :: seen) methods

def validatePublishes (ast : AstFile) (declarations : DeclarationMap) (service : ServiceDef) :
    List Bytes → List Ident → Check Unit
  | _, [] => return ()
  | seen, topic :: topics => do
      if topic.val ∈ seen then
        throw (serviceText service ++ ascii " has duplicate publishes entry '" ++ topic.val ++
          ascii "'")
      let qualified := qualify ast.packageName topic
      match declarations[qualified]? with
      | none =>
        throw (serviceText service ++ ascii " publishes unknown topic '" ++ qualified ++ ascii "'")
      | some .topic => validatePublishes ast declarations service (topic.val :: seen) topics
      | some _ =>
        throw (serviceText service ++ ascii " publishes non-topic '" ++ qualified ++ ascii "'")

def validateService (ast : AstFile) (declarations : DeclarationMap) (service : ServiceDef) :
    Check Unit := do
  validateMethods ast declarations service [] service.methods
  validatePublishes ast declarations service [] service.publishes

/-! ### By-value dependencies -/

/-- A search over structs as a check: its calls are counted together with the other traversals. -/
def searchStructs {κ : Type} [Ord κ] (label : κ → Bytes)
    (search : DepthFirst.Search κ → Except (DepthFirst.Failure κ) (DepthFirst.Search κ)) :
    Check (List κ) := fun traversal =>
  match search ⟨∅, [], traversal⟩ with
  | .ok s => .ok (s.order, s.calls)
  | .error .tooDeep => .error (ascii "semantic dependency depth limit exceeded")
  | .error .tooLong => .error traversalLimitExceeded
  | .error (.cycle node) => .error (ascii "by-value struct cycle involving '" ++ label node ++ ascii "'")

/-- The position under which `local` finds a struct: the last one of that name. -/
def localIndex (ast : AstFile) (name : Ident) : Option Nat :=
  (List.range ast.structs.length).reverse.find? fun i =>
    (ast.structs[i]?.map StructDef.name) = some name

/-- The structs of the same file that a struct contains by value. -/
def localDependencies (ast : AstFile) (index : Nat) : List Nat :=
  match ast.structs[index]? with
  | none => []
  | some definition => definition.fields.filterMap fun field =>
    match field.type with
    | .custom package name =>
      if resolvePackage ast.packageName package = ast.packageName then localIndex ast name
      else none
    | _ => none

/-- `visitLocalStruct` for every struct of the file. -/
def visitLocalStructs (ast : AstFile) : Check (List Nat) :=
  searchStructs
    (fun i => ((ast.structs[i]?).map fun definition => qualify ast.packageName definition.name).getD [])
    (DepthFirst.visitEach (DepthFirst.visit idlcMaxSemanticTraversal (localDependencies ast)
      (idlcMaxStructDependencyDepth + 1)) (List.range ast.structs.length))

def orderStructs (ast : AstFile) : Check AstFile := do
  let order ← visitLocalStructs ast
  return { ast with structs := order.filterMap fun i => ast.structs[i]? }

def validateFile (ast : AstFile) (packages : Packages) : Check AstFile := do
  if ast.packageDeclarationCount = 0 || ast.packageName.val.isEmpty then
    throw (ast.filePath ++ ascii ": package declaration is required")
  if ast.packageDeclarationCount > 1 then
    throw (ast.filePath ++ ascii ": package may be declared only once")
  if !ast.packageBeforeImportsAndDeclarations then
    throw (ast.filePath ++ ascii ": package must appear before imports and declarations")
  if !ast.importsBeforeDeclarations then
    throw (ast.filePath ++ ascii ": imports must appear before declarations")
  let declarations ← buildVisibleDeclarations ast packages
  ast.structs.forM fun definition =>
    validateMembers ast declarations "struct" definition.name definition.fields
  ast.topics.forM fun topic => validateMembers ast declarations "topic" topic.name topic.fields
  ast.services.forM (validateService ast declarations)
  orderStructs ast

/-- Every struct of every package under its qualified name, with its package. -/
def allStructs (packages : Packages) : Table Bytes (Ident × StructDef) :=
  packages.table.toList.foldl (fun structs (_, ast) =>
    ast.structs.foldl (fun structs definition =>
      structs.insert (qualify ast.packageName definition.name) (ast.packageName, definition))
      structs) ∅

/-- The structs that a struct contains by value. The source takes the package from the qualified name,
    up to its last dot; here it is kept next to the definition. -/
def valueDependencies (structs : Table Bytes (Ident × StructDef)) (name : Bytes) : List Bytes :=
  match structs[name]? with
  | none => []
  | some (package, definition) => definition.fields.filterMap fun field =>
    match field.type with
    | .custom given custom =>
      let target := qualify (resolvePackage package given) custom
      if structs.contains target then some target else none
    | _ => none

/-- `visitQualified` for every struct of every package. -/
def validateCycles (packages : Packages) : Check Unit := do
  let structs := allStructs packages
  let _ ← searchStructs id
    (DepthFirst.visitEach (DepthFirst.visit idlcMaxSemanticTraversal (valueDependencies structs)
      (idlcMaxStructDependencyDepth + 1)) (structs.toList.map Prod.fst))
  return ()

/-! ### The entry point -/

/-- Each file in turn; a file that passes is put back with its structs in order. -/
def validateFiles (packages : Packages) : Check Packages :=
  packages.names.foldlM (fun packages name =>
    match packages.find name with
    | none => pure packages
    | some ast => do
        let ast ← validateFile ast packages
        return packages.insert ast) packages

def checkSemantics (root : AstFile) (loaded : Packages) : Check (AstFile × Packages) := do
  let working := if root.packageName.val.isEmpty then loaded else loaded.insert root
  let working ← validateFiles working
  if root.packageName.val.isEmpty then
    let _ ← validateFile root working
  validateCycles working
  return ((working.find root.packageName.val).getD root, working)

/-- The validated root and the packages with their structs in order, or the text of the first error. -/
def validateSemantics (root : AstFile) (loaded : Packages) : Except Bytes (AstFile × Packages) :=
  match checkSemantics root loaded 0 with
  | .ok (result, _) => .ok result
  | .error text => .error text

/-- An accepted root, with what a check finds out about the packages. -/
theorem exists_accepted {root : AstFile} {P : Packages → Prop} [DecidablePred P]
    (h : (match validateSemantics root Packages.empty with
      | .ok (_, packages) => decide (P packages)
      | .error _ => false) = true) :
    ∃ ast packages, validateSemantics root Packages.empty = .ok (ast, packages) ∧ P packages := by
  split at h
  · next ast packages hresult => exact ⟨ast, packages, hresult, of_decide_eq_true h⟩
  · cases h

end OmniBinder.Idl
