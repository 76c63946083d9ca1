/-
Module: OmniBinder.Proofs.CNames
Purpose: Which function a name stands for in the generated C program, and what the code does with a value.
  In a program that builds, the name of a struct or topic stands for the function made from its fields.
Trusted boundary: none
Main exports: InIdl, function_array, exec_runs
-/
import Mathlib.Data.List.Nodup
import OmniBinder.Proofs.IdlHashTraversal
import OmniBinder.Proofs.CppWire

namespace OmniBinder.Idl

open OmniBinder List Option CCode

/-! ### Types of an IDL -/

/-- The types of a file: those it uses, its structs and topics, and the elements of its arrays. -/
inductive InIdl (packages : Packages) (package : Ident) : TypeRef → Prop
  | used {ast : AstFile} {type : TypeRef} : packages.find package.val = some ast → type ∈ ast.types →
      InIdl packages package type
  | struct {ast : AstFile} {definition : StructDef} {given : Ident} :
      packages.find package.val = some ast → definition ∈ ast.structs →
      resolvePackage package given = package → InIdl packages package (.custom given definition.name)
  | topic {ast : AstFile} {topic : TopicDef} {given : Ident} :
      packages.find package.val = some ast → topic ∈ ast.topics →
      resolvePackage package given = package → InIdl packages package (.custom given topic.name)
  | element {type : TypeRef} : InIdl packages package (.array type) → InIdl packages package type

variable {ast : AstFile}

theorem mem_types_struct {definition : StructDef} (hmem : definition ∈ ast.structs)
    {field : FieldDef} (hfield : field ∈ definition.fields) : field.type ∈ ast.types :=
  mem_append_left _ (mem_append_left _
    (mem_flatMap.mpr ⟨definition, hmem, List.mem_map.mpr ⟨field, hfield, rfl⟩⟩))

theorem mem_types_topic {topic : TopicDef} (hmem : topic ∈ ast.topics) {field : FieldDef}
    (hfield : field ∈ topic.fields) : field.type ∈ ast.types :=
  mem_append_left _ (mem_append_right _
    (mem_flatMap.mpr ⟨topic, hmem, List.mem_map.mpr ⟨field, hfield, rfl⟩⟩))

/-- Every type that a file uses resolves. -/
theorem FileResolves.types {packages : Packages} (hfile : FileResolves packages ast) :
    ∀ type ∈ ast.types, Resolves packages ast.packageName type := by
  intro type htype
  rcases mem_append.mp htype with htype | htype
  · rcases mem_append.mp htype with htype | htype
    · obtain ⟨definition, hdefinition, htype⟩ := mem_flatMap.mp htype
      obtain ⟨field, hfield, rfl⟩ := List.mem_map.mp htype
      exact hfile.structs definition hdefinition field hfield
    · obtain ⟨topic, htopic, htype⟩ := mem_flatMap.mp htype
      obtain ⟨field, hfield, rfl⟩ := List.mem_map.mp htype
      exact hfile.topics topic htopic field hfield
  · obtain ⟨service, hservice, htype⟩ := mem_flatMap.mp htype
    obtain ⟨method, hmethod, htype⟩ := mem_flatMap.mp htype
    rcases mem_cons.mp htype with rfl | htype
    · exact hfile.returns service hservice method hmethod
    · obtain ⟨param, hparam, rfl⟩ := List.mem_map.mp htype
      exact hfile.params service hservice method hmethod param (Option.mem_toList.mp hparam)

variable {package name : Ident} {type : TypeRef}

section
variable {packages : Packages}

theorem exists_find?_eq {α : Type} (nameOf : α → Ident) {xs : List α} {x : α} (hx : x ∈ xs) :
    ∃ found, xs.find? (fun other => nameOf other = nameOf x) = some found :=
  isSome_iff_exists.mp (find?_isSome.mpr ⟨x, hx, by simp⟩)

theorem classFields_of_defines (h : Defines packages package name) :
    ∃ fields, classFields packages package name = some fields := by
  obtain ⟨ast, hfind, definition, hdefinition, rfl⟩ := h
  obtain ⟨found, hfound⟩ := exists_find?_eq StructDef.name hdefinition
  exact ⟨found.fields, by simp [classFields, hfind, hfound]⟩

/-- A class is made from a struct or from a topic of the file of its package. -/
theorem classFields_cases {fields : List FieldDef}
    (h : classFields packages package name = some fields) :
    ∃ ast, packages.find package.val = some ast ∧
      ((∃ definition ∈ ast.structs, definition.name = name ∧ definition.fields = fields) ∨
        ∃ topic ∈ ast.topics, topic.name = name ∧ topic.fields = fields) := by
  unfold classFields at h
  cases hfind : packages.find package.val with
  | none => simp [hfind] at h
  | some ast =>
    refine ⟨ast, rfl, ?_⟩
    simp only [hfind] at h
    cases hstruct : ast.structs.find? fun definition => definition.name = name with
    | some definition =>
      simp only [hstruct, Option.some.injEq] at h
      exact .inl ⟨definition, mem_of_find?_eq_some hstruct,
        by simpa using find?_some hstruct, h⟩
    | none =>
      simp only [hstruct, map_eq_some_iff] at h
      obtain ⟨topic, htopic, hfields⟩ := h
      exact .inr ⟨topic, mem_of_find?_eq_some htopic,
        by simpa using find?_some htopic, hfields⟩

/-- The types of the fields of a class are types of its file. -/
theorem InIdl.field {fields : List FieldDef} (h : classFields packages package name = some fields)
    {field : FieldDef} (hfield : field ∈ fields) : InIdl packages package field.type := by
  obtain ⟨ast, hfind, ⟨definition, hdefinition, _, rfl⟩ | ⟨topic, htopic, _, rfl⟩⟩ :=
    classFields_cases h
  · exact .used hfind (mem_types_struct hdefinition hfield)
  · exact .used hfind (mem_types_topic htopic hfield)

theorem Closed.resolves_member (hclosed : Closed packages) {fields : List FieldDef}
    (h : classFields packages package name = some fields) {field : FieldDef}
    (hfield : field ∈ fields) : Resolves packages package field.type := by
  obtain ⟨ast, hfind, hclass⟩ := classFields_cases h
  obtain rfl : ast.packageName = package := Subtype.ext (packages.find_packageName hfind)
  rcases hclass with ⟨definition, hdefinition, _, rfl⟩ | ⟨topic, htopic, _, rfl⟩
  · exact (hclosed _ ast hfind).structs definition hdefinition field hfield
  · exact (hclosed _ ast hfind).topics topic htopic field hfield

/-- What the validator established for a type of a file: it resolves, or it names a topic of the file. -/
theorem InIdl.resolves (hclosed : Closed packages) (h : InIdl packages package type) :
    Resolves packages package type ∨ ∃ given ast, ∃ topic ∈ ast.topics,
      packages.find package.val = some ast ∧ resolvePackage package given = package ∧
        type = .custom given topic.name := by
  induction h with
  | used hfind htype =>
    left
    have hpackage := Subtype.ext (packages.find_packageName hfind)
    exact hpackage ▸ (hclosed _ _ hfind).types _ htype
  | struct hfind hdefinition hgiven =>
    left
    change Defines packages (resolvePackage package _) _
    rw [hgiven]
    exact ⟨_, hfind, _, hdefinition, rfl⟩
  | topic hfind htopic hgiven => exact .inr ⟨_, _, _, htopic, hfind, hgiven, rfl⟩
  | element _ ih =>
    rcases ih with hresolves | ⟨_, _, _, _, _, _, hcustom⟩
    · exact .inl hresolves
    · cases hcustom

/-- A class that a type of a file names is generated. -/
theorem InIdl.classFields (hclosed : Closed packages) {given : Ident}
    (h : InIdl packages package (.custom given name)) :
    ∃ fields, classFields packages (resolvePackage package given) name = some fields := by
  rcases h.resolves hclosed with hdefines | ⟨given, ast, topic, htopic, hfind, hgiven, hcustom⟩
  · exact classFields_of_defines hdefines
  cases hcustom
  rw [hgiven]
  by_cases hstruct : Defines packages package topic.name
  · exact classFields_of_defines hstruct
  have hnone : (ast.structs.find? fun definition => definition.name = topic.name) = none := by
    rw [find?_eq_none]
    intro definition hdefinition hname
    exact hstruct ⟨ast, hfind, definition, hdefinition, by simpa using hname⟩
  obtain ⟨found, hfound⟩ := exists_find?_eq TopicDef.name htopic
  exact ⟨found.fields, by simp [Idl.classFields, hfind, hnone, hfound]⟩

end

/-! ### Functions by name -/

/-- In a program that builds, a function is found under its name. -/
theorem CProgram.function_of_mem {program : CProgram} (hbuilds : program.Builds) {name : Bytes}
    {function : CFunction} (hmem : (name, function) ∈ program) :
    program.function name = some function := by
  have hsome : (program.find? fun entry => entry.1 = name).isSome = true :=
    find?_isSome.mpr ⟨(name, function), hmem, by simp⟩
  obtain ⟨found, hfound⟩ := isSome_iff_exists.mp hsome
  have hname : found.1 = name := by simpa using find?_some hfound
  have hsame : found = (name, function) :=
    inj_on_of_nodup_map hbuilds (mem_of_find?_eq_some hfound) hmem hname
  rw [CProgram.function, hfound, hsame]
  rfl

theorem mem_cProgram {packages : Packages} {entry : Bytes × CFunction}
    (hfind : packages.find package.val = some ast) (hentry : entry ∈ generateSource ast) :
    entry ∈ cProgram packages :=
  mem_flatMap.mpr ⟨(package.val, ast), Table.mem_toList.mpr hfind, hentry⟩

section
variable {packages : Packages}

/-- The name of a class stands for the function made from its fields. -/
theorem function_class (hbuilds : (cProgram packages).Builds) {given : Ident} {fields : List FieldDef}
    (hfields : classFields packages (resolvePackage package given) name = some fields) :
    (cProgram packages).function (cTypePrefix package given name) =
      some (emitStructSerialize (resolvePackage package given) fields) := by
  apply CProgram.function_of_mem hbuilds
  obtain ⟨ast, hfind, hclass⟩ := classFields_cases hfields
  have hpackage : ast.packageName = resolvePackage package given :=
    Subtype.ext (packages.find_packageName hfind)
  apply mem_cProgram hfind
  rcases hclass with ⟨definition, hdefinition, rfl, rfl⟩ | ⟨topic, htopic, rfl, rfl⟩
  · refine mem_append_left _ (mem_append_right _ (List.mem_map.mpr ⟨definition, hdefinition, ?_⟩))
    rw [hpackage]
    rfl
  · refine mem_append_right _ (List.mem_map.mpr ⟨topic, htopic, ?_⟩)
    rw [hpackage]
    rfl

/-! ### Collected array types -/

/-- Every array type in the type has its name among those collected. -/
def ArraysCollected (package : Ident) (arrays : List TypeRef) : TypeRef → Prop
  | .array element =>
    (∃ kept ∈ arrays, cArrayTypeName package kept = cArrayTypeName package (.array element)) ∧
      ArraysCollected package arrays element
  | .bareArray => ∃ kept ∈ arrays, cArrayTypeName package kept = cArrayTypeName package .bareArray
  | _ => True

theorem ArraysCollected.mono {arrays later : List TypeRef} (hsub : arrays ⊆ later)
    (h : ArraysCollected package arrays type) : ArraysCollected package later type := by
  induction type with
  | array element ih =>
    obtain ⟨⟨kept, hkept, hname⟩, helement⟩ := h
    exact ⟨⟨kept, hsub hkept, hname⟩, ih helement⟩
  | bareArray =>
    obtain ⟨kept, hkept, hname⟩ := h
    exact ⟨kept, hsub hkept, hname⟩
  | _ => trivial

section
variable (package : Ident) (arrays : List TypeRef) (type : TypeRef)

theorem addArrayType_spec : arrays ⊆ addArrayType package arrays type ∧
      (∃ kept ∈ addArrayType package arrays type,
        cArrayTypeName package kept = cArrayTypeName package type) ∧
      ∀ kept ∈ addArrayType package arrays type, kept ∈ arrays ∨ kept = type := by
  unfold addArrayType
  split_ifs with htaken
  · obtain ⟨kept, hkept, hname⟩ := List.any_eq_true.mp htaken
    exact ⟨fun _ h => h, ⟨kept, hkept, by simpa using hname⟩, fun _ => .inl⟩
  · refine ⟨subset_append_left _ _, ⟨type, by simp, rfl⟩, ?_⟩
    intro kept hkept
    simpa using hkept

end

/-- `TypeRef::isArray`. -/
def TypeRef.isArray : TypeRef → Bool
  | .array _ => true
  | .bareArray => true
  | _ => false

/-- What the list becomes when the array types in some types are collected. What is collected are array
    types that have been seen: there before, or parts of the types. -/
structure Collects (package : Ident) (types arrays later : List TypeRef) : Prop where
  subset : arrays ⊆ later
  collected : ∀ type ∈ types, ArraysCollected package later type
  mem : ∀ {seen : TypeRef → Prop}, (∀ type, seen (.array type) → seen type) →
    (∀ type ∈ types, seen type) → ∀ kept ∈ later, kept ∈ arrays ∨ (seen kept ∧ kept.isArray = true)

theorem Collects.trans {types types' arrays later last : List TypeRef}
    (h : Collects package types arrays later) (h' : Collects package types' later last) :
    Collects package (types ++ types') arrays last where
  subset := Subset.trans h.subset h'.subset
  collected := fun type htype => (mem_append.mp htype).elim
    (fun htype => (h.collected type htype).mono h'.subset) (h'.collected type)
  mem := fun helement hseen kept hkept => by
    obtain ⟨hseen, hseen'⟩ := forall_mem_append.mp hseen
    exact (h'.mem helement hseen' kept hkept).elim (h.mem helement hseen kept) .inr

theorem collects_collectArrayTypes (package : Ident) (arrays : List TypeRef) (type : TypeRef) :
    Collects package [type] arrays (collectArrayTypes package arrays type) := by
  induction type with
  | array element ih =>
    obtain ⟨hsubset, hadded, hmem⟩ :=
      addArrayType_spec package (collectArrayTypes package arrays element) (.array element)
    refine ⟨Subset.trans ih.subset hsubset, forall_mem_singleton.mpr ⟨hadded, ?_⟩, ?_⟩
    · exact (ih.collected element mem_cons_self).mono hsubset
    · intro seen helement hseen kept hkept
      have htype := forall_mem_singleton.mp hseen
      rcases hmem kept hkept with hkept | rfl
      · exact ih.mem helement (forall_mem_singleton.mpr (helement _ htype)) kept hkept
      · exact .inr ⟨htype, rfl⟩
  | bareArray =>
    obtain ⟨hsubset, hadded, hmem⟩ := addArrayType_spec package arrays .bareArray
    refine ⟨hsubset, forall_mem_singleton.mpr hadded, fun _ hseen kept hkept => ?_⟩
    rcases hmem kept hkept with hkept | rfl
    · exact .inl hkept
    · exact .inr ⟨forall_mem_singleton.mp hseen, rfl⟩
  | _ => exact ⟨Subset.refl _, forall_mem_singleton.mpr trivial, fun _ _ _ => .inl⟩

theorem collects_foldl (package : Ident) (types arrays : List TypeRef) :
    Collects package types arrays (types.foldl (collectArrayTypes package) arrays) := by
  induction types generalizing arrays with
  | nil => exact ⟨Subset.refl _, by simp, fun _ _ _ => .inl⟩
  | cons type types ih => exact (collects_collectArrayTypes package arrays type).trans (ih _)

/-- The array types in a type of a file are collected from that file. -/
theorem InIdl.collected (h : InIdl packages package type)
    (hfind : packages.find package.val = some ast) :
    ArraysCollected package (collectArrayTypesFromAst ast) type := by
  have hpackage : ast.packageName = package := Subtype.ext (packages.find_packageName hfind)
  induction h with
  | used hfile htype =>
    rw [hfind] at hfile
    cases hfile
    exact hpackage ▸ (collects_foldl ast.packageName ast.types []).collected _ htype
  | struct => trivial
  | topic => trivial
  | element _ ih => exact ih.2

theorem InIdl.file (h : InIdl packages package type) : ∃ ast, packages.find package.val = some ast := by
  induction h with
  | used hfind => exact ⟨_, hfind⟩
  | struct hfind => exact ⟨_, hfind⟩
  | topic hfind => exact ⟨_, hfind⟩
  | element _ ih => exact ih

/-- A collected array type has its function in the program. -/
theorem function_collected (hbuilds : (cProgram packages).Builds)
    (hfind : packages.find package.val = some ast) {kept : TypeRef}
    (hkept : kept ∈ collectArrayTypesFromAst ast) :
    (cProgram packages).function (cArrayTypeName package kept) =
      some (emitArraySerialize package kept) := by
  have hpackage : ast.packageName = package := Subtype.ext (packages.find_packageName hfind)
  apply CProgram.function_of_mem hbuilds
  apply mem_cProgram hfind
  refine mem_append_left _ (mem_append_left _ (List.mem_map.mpr ⟨kept, hkept, ?_⟩))
  rw [hpackage]

/-- The name of an array type stands for the function of an array type of the file with that name. -/
theorem function_array (hbuilds : (cProgram packages).Builds) {element : TypeRef}
    (h : InIdl packages package (.array element)) :
    ∃ kept, (InIdl packages package kept ∧ kept.isArray = true) ∧
      cArrayTypeName package kept = cArrayTypeName package (.array element) ∧
      (cProgram packages).function (cArrayTypeName package (.array element)) =
        some (emitArraySerialize package kept) := by
  obtain ⟨ast, hfind⟩ := h.file
  obtain ⟨⟨kept, hkept, hname⟩, _⟩ := h.collected hfind
  refine ⟨kept, ?_, hname, hname ▸ function_collected hbuilds hfind hkept⟩
  exact ((collects_foldl ast.packageName ast.types []).mem (fun _ => InIdl.element)
    (fun type htype => InIdl.used hfind htype) kept hkept).resolve_left not_mem_nil

end

open Sticky

/-! ### Arrays with a function of their own -/

mutual

/-- Every array in the value that has elements is serialized by the function for its element type. Array
    types whose C names coincide share the function of one of them. -/
def ArraysOwn (packages : Packages) (package : Ident) (type : TypeRef) : Value → Prop
  | .struct values =>
    match type with
    | .custom given name =>
      match classFields packages (resolvePackage package given) name with
      | some fields => FieldsOwn packages (resolvePackage package given) fields values
      | none => True
    | _ => True
  | .array values =>
    match type with
    | .array element =>
      (values ≠ [] → (cProgram packages).function (cArrayTypeName package (.array element)) =
        some (.elements (emitValueSerialize package element))) ∧
      AllOwn packages package element values
    | _ => True
  | _ => True

def FieldsOwn (packages : Packages) (package : Ident) (fields : List FieldDef) : List Value → Prop
  | [] => True
  | value :: values =>
    match fields with
    | field :: fields =>
      ArraysOwn packages package field.type value ∧ FieldsOwn packages package fields values
    | [] => True

def AllOwn (packages : Packages) (package : Ident) (type : TypeRef) : List Value → Prop
  | [] => True
  | value :: values => ArraysOwn packages package type value ∧ AllOwn packages package type values

end

/-! ### Tokens -/

theorem underscore_mem_cTypePrefix (package given name : Ident) :
    (0x5F : UInt8) ∈ cTypePrefix package given name := by
  rw [cTypePrefix, append_assoc]
  exact mem_append_right _ (mem_append_left _ (by decide))

variable {package : Ident}

/-- No value type has the token of `void`. -/
theorem eq_void_of_cTypeToken {type : TypeRef} (h : cTypeToken package type = ascii "void") :
    type = .void := by
  have hplain : (0x5F : UInt8) ∉ ascii "void" := by decide
  cases type with
  | void => rfl
  | prim primitive =>
    have hother : primitiveToken primitive ≠ ascii "void" := by cases primitive <;> decide
    exact absurd h hother
  | custom given name => exact absurd (h ▸ underscore_mem_cTypePrefix package given name) hplain
  | array element =>
    have hmem : (0x5F : UInt8) ∈ cTypeToken package (.array element) :=
      mem_append_right _ (by decide)
    exact absurd (h ▸ hmem) hplain
  | bareArray => exact absurd h (show ascii "void_array" ≠ ascii "void" by decide)

theorem cTypeToken_of_name {type other : TypeRef}
    (h : cArrayTypeName package type = cArrayTypeName package other) :
    cTypeToken package type = cTypeToken package other := append_cancel_left h

variable {value : Value} {values : List Value} {element : TypeRef}

section
variable {packages : Packages} {alloc : Allocator}

theorem primitive_of_hasType {primitive : PrimitiveType}
    (htyped : HasType packages package (.prim primitive) value) :
    value.primitive = some primitive ∧ value.isPrimitive = true := by
  cases value with
  | struct values => simp [HasType] at htyped
  | array values => simp [HasType] at htyped
  | _ =>
    cases htyped
    exact ⟨rfl, rfl⟩

theorem exec_primitive {program : CProgram} {code : CCode} {buf : Buffer}
    (hprimitive : value.isPrimitive = true) :
    code.exec alloc program buf value =
      match code with
      | .nothing => some buf
      | .write primitive =>
        if value.primitive = some primitive then
          some (writePrimitive alloc buf (cArgument value)).2
        else none
      | .call _ => none := by
  cases value with
  | struct values => cases hprimitive
  | array values => cases hprimitive
  | _ => cases code <;> simp only [exec]

/-! ### The writes of the C code -/

/-- The writes of a value as the C code makes them. -/
def cWrites (alloc : Allocator) (value : Value) : List (Buffer → Bool × Buffer) :=
  value.writes.map fun written => writeStep alloc (cArgument written)

def cWritesAll (alloc : Allocator) (values : List Value) : List (Buffer → Bool × Buffer) :=
  (Value.writesAll values).map fun written => writeStep alloc (cArgument written)

theorem cWritesAll_cons (alloc : Allocator) (value : Value) (values : List Value) :
    cWritesAll alloc (value :: values) = cWrites alloc value ++ cWritesAll alloc values := by
  rw [cWritesAll, Value.writesAll, map_append]
  rfl

/-- The C code runs on a value exactly if the arrays in it have functions of their own, and then it makes
    the writes of the value. -/
def RunsCWrites (alloc : Allocator) (packages : Packages) (value : Value) : Prop :=
  ∀ {package : Ident} {type : TypeRef}, InIdl packages package type →
    HasType packages package type value → ∀ buf buf' : Buffer,
      ((emitValueSerialize package type).exec alloc (cProgram packages) buf value = some buf' ↔
        ArraysOwn packages package type value ∧ runAll (cWrites alloc value) buf = buf')

theorem execCFields_runs (hmembers : ∀ value ∈ values, RunsCWrites alloc packages value) :
    ∀ {fields : List FieldDef}, (∀ field ∈ fields, InIdl packages package field.type) →
        FieldsHaveType packages package fields values → ∀ buf buf' : Buffer,
          (execCFields alloc (cProgram packages)
              (fields.map fun field => emitValueSerialize package field.type) buf values = some buf' ↔
            FieldsOwn packages package fields values ∧ runAll (cWritesAll alloc values) buf = buf') := by
  induction values with
  | nil => simp [execCFields, FieldsOwn, cWritesAll, Value.writesAll]
  | cons value values ih =>
    intro fields hin htyped buf buf'
    obtain ⟨field, others, rfl, hvalue, hvalues⟩ := fieldsHaveType_cons.mp htyped
    have hfirst := hmembers value mem_cons_self (hin field mem_cons_self) hvalue buf
    rw [map_cons, execCFields, cWritesAll_cons, runAll_append, FieldsOwn, and_assoc]
    cases hrun : (emitValueSerialize package field.type).exec alloc (cProgram packages) buf value with
    | none =>
      refine iff_of_false (by simp) fun h => ?_
      cases hrun.symm.trans ((hfirst _).mpr ⟨h.1, rfl⟩)
    | some middle =>
      obtain ⟨hown, rfl⟩ := (hfirst middle).mp hrun
      exact (ih (fun v hv => hmembers v (mem_cons_of_mem _ hv))
        (fun f hf => hin f (mem_cons_of_mem _ hf)) hvalues _ _).trans (and_iff_right hown).symm

/-- The loop over the elements runs as the code of that many fields does. -/
theorem execCElements_eq (element : TypeRef) (values : List Value) (buf : Buffer) :
    execCElements alloc (cProgram packages) (emitValueSerialize package element) buf values =
      execCFields alloc (cProgram packages) ((repeated element values.length).map fun field =>
        emitValueSerialize package field.type) buf values := by
  induction values generalizing buf with
  | nil => rfl
  | cons value values ih =>
    simp only [execCElements, length_cons, repeated, replicate_succ, map_cons, execCFields, ih]

theorem fieldsOwn_repeated : FieldsOwn packages package (repeated element values.length) values ↔
    AllOwn packages package element values := by
  induction values with
  | nil => exact Iff.rfl
  | cons value values ih => exact and_congr_right' ih

theorem InIdl.repeated (hin : InIdl packages package element) {count : Nat} :
    ∀ field ∈ repeated element count, InIdl packages package field.type := by
  intro field hfield
  rw [eq_of_mem_replicate hfield]
  exact hin

/-! ### Code that was not made for the value -/

/-- Code for a type with the same token runs on a value of the element type only if it is the same code:
    otherwise a struct would meet an array, or a number one of the two. -/
theorem emit_eq_of_exec (hclosed : Closed packages) (hbuilds : (cProgram packages).Builds)
    {other : TypeRef} {buf buf' : Buffer}
    (htoken : cTypeToken package other = cTypeToken package element)
    (hother : InIdl packages package other) (htyped : HasType packages package element value)
    (hrun : (emitValueSerialize package other).exec alloc (cProgram packages) buf value = some buf') :
    emitValueSerialize package other = emitValueSerialize package element := by
  have hvoid : other = .void → element = .void := by
    rintro rfl
    exact eq_void_of_cTypeToken htoken.symm
  have harray (hshape : other = .bareArray ∨ ∃ inner, other = .array inner) :
      emitValueSerialize package other = .call (cArrayTypeName package other) ∧
        ∃ body, (cProgram packages).function (cArrayTypeName package other) = some (.elements body) := by
    obtain ⟨ast, hfind⟩ := hother.file
    have hcollected := hother.collected hfind
    obtain ⟨hcode, kept, hkept, hname⟩ :
        emitValueSerialize package other = .call (cArrayTypeName package other) ∧
          ∃ kept ∈ collectArrayTypesFromAst ast, cArrayTypeName package kept =
            cArrayTypeName package other := by
      rcases hshape with rfl | ⟨inner, rfl⟩
      · exact ⟨rfl, hcollected⟩
      · exact ⟨rfl, hcollected.1⟩
    refine ⟨hcode, ?_⟩
    rw [← hname, function_collected hbuilds hfind hkept]
    cases kept <;> exact ⟨_, rfl⟩
  induction value using Value.tree_induction with
  | primitive value hprimitive =>
    obtain ⟨primitive, rfl⟩ := hasType_primitive hprimitive htyped
    rw [exec_primitive hprimitive, (primitive_of_hasType htyped).1] at hrun
    cases other with
    | void => cases hvoid rfl
    | prim given =>
      simp only [emitValueSerialize, Option.some.injEq] at hrun
      split_ifs at hrun with hsame
      rw [hsame]
    | custom given name => cases hrun
    | array inner => cases hrun
    | bareArray => cases hrun
  | struct values _ =>
    obtain ⟨given, name, fields, rfl, _, _⟩ := hasType_struct.mp htyped
    cases other with
    | void => cases hvoid rfl
    | prim primitive => simp [emitValueSerialize, exec] at hrun
    | custom otherGiven otherName => exact congrArg call htoken
    | array inner =>
      obtain ⟨hcode, body, hfunction⟩ := harray (.inr ⟨inner, rfl⟩)
      simp [hcode, exec, hfunction] at hrun
    | bareArray =>
      obtain ⟨hcode, body, hfunction⟩ := harray (.inl rfl)
      simp [hcode, exec, hfunction] at hrun
  | array values _ =>
    obtain ⟨inner, rfl, _⟩ := hasType_array.mp htyped
    have hname : cArrayTypeName package other = cArrayTypeName package (.array inner) :=
      congrArg (package.val ++ ascii "_" ++ ·) htoken
    cases other with
    | void => cases hvoid rfl
    | prim primitive => simp [emitValueSerialize, exec] at hrun
    | custom given name =>
      obtain ⟨fields, hfields⟩ := hother.classFields hclosed
      simp [emitValueSerialize, exec, function_class hbuilds hfields, emitStructSerialize]
        at hrun
    | array otherInner => exact congrArg call hname
    | bareArray => exact congrArg call hname

theorem exec_runs (alloc : Allocator) (hclosed : Closed packages)
    (hbuilds : (cProgram packages).Builds) (value : Value) : RunsCWrites alloc packages value := by
  induction value using Value.tree_induction with
  | primitive value hprimitive =>
    intro package type _ htyped buf buf'
    obtain ⟨primitive, rfl⟩ := hasType_primitive hprimitive htyped
    have hown : ArraysOwn packages package (.prim primitive) value := by
      cases value with
      | struct values => cases hprimitive
      | array values => cases hprimitive
      | _ => simp only [ArraysOwn]
    rw [exec_primitive hprimitive, cWrites, Value.writes_of_primitive hprimitive]
    simp only [emitValueSerialize, (primitive_of_hasType htyped).1, if_true, hown, true_and,
      Option.some.injEq]
    rfl
  | struct values ih =>
    intro package type _ htyped buf buf'
    obtain ⟨given, name, fields, rfl, hfields, hvalues⟩ := hasType_struct.mp htyped
    simp only [emitValueSerialize, exec, function_class hbuilds hfields, emitStructSerialize,
      ArraysOwn, hfields]
    rw [cWrites, Value.writes]
    exact execCFields_runs ih (fun field => InIdl.field hfields) hvalues buf buf'
  | array values ih =>
    intro package type hin htyped buf buf'
    obtain ⟨element, rfl, hvalues⟩ := hasType_array.mp htyped
    obtain ⟨kept, ⟨hkept, hshape⟩, hname, hfunction⟩ := function_array hbuilds hin
    simp only [emitValueSerialize, exec, ArraysOwn]
    rw [cWrites, Value.writes, map_cons, runAll_cons]
    have hruns (buf : Buffer) := (execCFields_runs ih hin.element.repeated
      (fieldsHaveType_repeated.mpr hvalues) buf buf').trans
        (and_congr_left' fieldsOwn_repeated)
    simp only [← execCElements_eq] at hruns
    cases values with
    | nil =>
      rw [hfunction]
      cases kept with
      | _ =>
        simp [emitArraySerialize, execCElements, AllOwn, Value.writesAll]
        rfl
    | cons value values =>
      obtain ⟨hvalue, hrest⟩ := hvalues
      constructor
      · intro hrun
        rw [hfunction] at hrun
        -- the function found is that of another array type with the same name
        have hbody : emitArraySerialize package kept =
            .elements (emitValueSerialize package element) := by
          have htoken := cTypeToken_of_name hname
          cases kept with
          | array other =>
            simp only [emitArraySerialize, execCElements] at hrun ⊢
            split at hrun
            · cases hrun
            · next middle hfirst =>
                rw [emit_eq_of_exec hclosed hbuilds (append_cancel_right htoken)
                  hkept.element hvalue hfirst]
          | bareArray =>
            have hvoid : cTypeToken package element = ascii "void" :=
              (append_cancel_right
                (show ascii "void" ++ ascii "_array" = _ ++ ascii "_array" from htoken)).symm
            cases eq_void_of_cTypeToken hvoid
            cases value <;> simp [HasType] at hvalue
          | _ => cases hshape
        rw [hbody] at hfunction hrun
        obtain ⟨hown, hlast⟩ := (hruns _).mp hrun
        exact ⟨⟨fun _ => hfunction, hown⟩, hlast⟩
      · rintro ⟨⟨howner, hown⟩, hlast⟩
        rw [howner (by simp)]
        exact (hruns _).mpr ⟨hown, hlast⟩

end

end OmniBinder.Idl
