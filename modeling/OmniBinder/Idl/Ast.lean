/-
Module: OmniBinder.Idl.Ast
Purpose: The syntax tree of an IDL file, `tools/omni_idlc/ast.h`, and the set of loaded packages of a
  `ParseContext`. Names are identifiers as the lexer reads them, so a qualified name splits in one way
  only.
Trusted boundary: human-reviewed spec
Main exports: Ident, resolvePackage
-/
import OmniBinder.Lib.Bytes
import OmniBinder.Lib.Table

namespace OmniBinder.Idl

open OmniBinder

/-- How deep a type may be nested, for the parser and for the validator. -/
def idlcMaxTypeNesting : Nat := 64

/-- The characters of `readIdentifierOrKeyword`: letters, digits and the underscore. -/
def isIdentifierChar (c : UInt8) : Bool :=
  (0x30 ≤ c && c ≤ 0x39) || (0x41 ≤ c && c ≤ 0x5A) || (0x61 ≤ c && c ≤ 0x7A) || c == 0x5F

abbrev Ident := { name : Bytes // name.all isIdentifierChar = true }

/-- A name that was not given. -/
abbrev Ident.empty : Ident := ⟨[], rfl⟩

inductive PrimitiveType where
  | bool
  | int8
  | uint8
  | int16
  | uint16
  | int32
  | uint32
  | int64
  | uint64
  | float32
  | float64
  | string
  | bytes
deriving DecidableEq, Repr

/-- `TypeRef`. An array without an element type can be built but not parsed. -/
inductive TypeRef where
  | prim (primitive : PrimitiveType)
  | void
  | custom (packageName customName : Ident)
  | array (element : TypeRef)
  | bareArray
deriving DecidableEq

structure FieldDef where
  type : TypeRef
  name : Ident
deriving DecidableEq

structure StructDef where
  name : Ident
  fields : List FieldDef
deriving DecidableEq

structure TopicDef where
  name : Ident
  fields : List FieldDef
deriving DecidableEq

structure ParamDef where
  type : TypeRef
  name : Ident
deriving DecidableEq

/-- A method has at most one parameter. -/
structure MethodDef where
  name : Ident
  returnType : TypeRef
  param : Option ParamDef
deriving DecidableEq

structure ServiceDef where
  name : Ident
  methods : List MethodDef
  publishes : List Ident
deriving DecidableEq

/-- `AstFile`. A file that is not read from a text names no import paths. -/
structure AstFile where
  packageName : Ident
  filePath : Bytes
  imports : List Bytes := []
  importedPackages : List Ident
  structs : List StructDef
  topics : List TopicDef
  services : List ServiceDef
  importsBeforeDeclarations : Bool
  packageBeforeImportsAndDeclarations : Bool
  packageDeclarationCount : Nat
deriving DecidableEq

/-- `ParseContext::loaded_packages`: every package under its own name. -/
structure Packages where
  table : Table Bytes AstFile
  keyed : ∀ (key : Bytes) (ast : AstFile), table[key]? = some ast → ast.packageName.val = key

namespace Packages

/-- No package loaded yet. -/
def empty : Packages := ⟨∅, by simp⟩

/-- Store a package, in place of one of the same name. -/
def insert (packages : Packages) (ast : AstFile) : Packages :=
  ⟨packages.table.insert ast.packageName.val ast, by
    intro key ast' h
    rw [Table.getElem?_insert] at h
    split at h
    · rename_i hkey
      rw [← Option.some.inj h]
      exact hkey
    · exact packages.keyed key ast' h⟩

def find (packages : Packages) (name : Bytes) : Option AstFile := packages.table[name]?

/-- The names of the packages, in the order of the map. -/
def names (packages : Packages) : List Bytes := packages.table.toList.map Prod.fst

end Packages

/-- The package and the name joined by a dot. -/
def qualify (package name : Ident) : Bytes := package.val ++ 0x2E :: name.val

/-- The package a reference means: its own one unless another is given. -/
def resolvePackage (own given : Ident) : Ident := if given.val.isEmpty then own else given

end OmniBinder.Idl
