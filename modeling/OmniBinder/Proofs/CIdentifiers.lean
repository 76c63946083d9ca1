/-
Module: OmniBinder.Proofs.CIdentifiers
Purpose: When the generated stubs dispatch every call to the method that the proxy named, and when the
  names that the C generator gives to methods, structs and array types are different. The names are
  joined by underscores, so they tell apart only what is spelled with different words.
Trusted boundary: none
Main exports: stubs_dispatch_iff, cNames_differ_iff
-/
import Mathlib.Data.FinEnum
import OmniBinder.Proofs.IdlHashSpec
import OmniBinder.Proofs.StructOrder
import OmniBinder.Proofs.CNames

namespace OmniBinder.Idl

open OmniBinder List TreeFile

variable {ast : AstFile}

/-- No two of the names have one hash. -/
def NoCollision (names : List Ident) : Prop :=
  ∀ name ∈ names, ∀ other ∈ names, fnv1aHash name.val = fnv1aHash other.val → name = other

/-- No definition of the header that follows the macro of a method gives it another number. -/
def MacrosKept (packages : Packages) (ast : AstFile) (service : ServiceDef) : Prop :=
  ∀ method ∈ service.methods,
    macroValue packages ast (methodMacro ast service method) = some (methodId method)

instance (names : List Ident) : Decidable (NoCollision names) :=
  inferInstanceAs (Decidable (∀ name ∈ names, ∀ other ∈ names, _ → _))

instance (packages : Packages) (ast : AstFile) (service : ServiceDef) :
    Decidable (MacrosKept packages ast service) :=
  inferInstanceAs (Decidable (∀ method ∈ service.methods, _))

theorem nodup_ids_iff {α : Type} {entries : List α} {name : α → Ident}
    (hnames : (entries.map name).Nodup) :
    (entries.map fun entry => fnv1aHash (name entry).val).Nodup ↔ NoCollision (entries.map name) := by
  have hids := nodup_map_iff_inj_on (f := fun name : Ident => fnv1aHash name.val) hnames
  rwa [List.map_map] at hids

/-- A search by number finds every entry exactly if each has its own number and no two have the same. -/
theorem finds_each_iff {α : Type} {entries : List α} {value : α → Option UInt32} {id : α → UInt32} :
    (∀ a ∈ entries, entries.find? (fun b => value b = some (id a)) = some a) ↔
      (∀ a ∈ entries, value a = some (id a)) ∧ ∀ a ∈ entries, ∀ b ∈ entries, id a = id b → a = b := by
  constructor
  · intro h
    refine ⟨fun a ha => by simpa using find?_some (h a ha), fun a ha b hb hsame => ?_⟩
    have hfirst := h a ha
    rw [hsame, h b hb] at hfirst
    exact (Option.some.inj hfirst).symm
  · rintro ⟨hvalue, hdiffer⟩ a ha
    cases hfind : entries.find? fun b => value b = some (id a) with
    | none => exact absurd (hvalue a ha) (by simpa using find?_eq_none.mp hfind a ha)
    | some b =>
      have hmem := mem_of_find?_eq_some hfind
      have hsame : some (id b) = some (id a) :=
        (hvalue b hmem).symm.trans (by simpa using find?_some hfind)
      rw [hdiffer b hmem a ha (Option.some.inj hsame)]

theorem AcceptedPackages.nodup_names (context : AcceptedPackages)
    (hloaded : IsLoaded context.packages ast) : (ast.topics.map TopicDef.name).Nodup ∧
      ∀ service ∈ ast.services, (service.methods.map MethodDef.name).Nodup := by
  obtain ⟨root, loaded, validated, haccepted⟩ := context.accepted
  obtain ⟨⟨_, htopics⟩, hmethods⟩ := ((validateSemantics_checks haccepted).2.2 hloaded).names
  refine ⟨htopics, fun service hservice => Nodup.of_map Subtype.val ?_⟩
  rw [List.map_map]
  exact hmethods service hservice

namespace CallFile

/-- A service whose methods have the given names. -/
def service (names : List Ident) : ServiceDef :=
  ⟨⟨ascii "Calls", by decide⟩, names.map fun name => ⟨name, .void, none⟩, []⟩

def file (names : List Ident) : AstFile := { TreeFile.file .uint8 with services := [service names] }

def plainNames : List Ident := [⟨ascii "ping", by decide⟩, ⟨ascii "getState", by decide⟩]

def collidingNames : List Ident := [⟨ascii "costarring", by decide⟩, ⟨ascii "liquid", by decide⟩]

/-- The hash macro of `ping` redefines the id macro of `pingIdlHash`, which no call reaches. -/
example : (match validateSemantics (file [⟨ascii "ping", by decide⟩, ⟨ascii "pingIdlHash", by decide⟩])
      Packages.empty with
    | .ok (ast, packages) =>
      ast.services.any fun service =>
        cOnInvoke packages ast service (fnv1aHash (ascii "pingIdlHash")) = none
    | .error _ => false) = true := by
  decide +kernel

end CallFile

/-- The parts of a name between underscores. -/
def nameWords (name : Bytes) : List Bytes := splitOn 0x5F name

theorem nameWords_inj {name other : Bytes} : nameWords name = nameWords other ↔ name = other := by
  have hjoin (text : Bytes) : [0x5F].intercalate (nameWords text) = text := intercalate_splitOn 0x5F
  refine ⟨fun h => ?_, congrArg nameWords⟩
  rw [← hjoin name, ← hjoin other, h]

theorem nameWords_join (first second : Bytes) :
    nameWords (first ++ ascii "_" ++ second) = nameWords first ++ nameWords second := by
  rw [append_assoc]
  exact splitOn_append_cons_self first second

/-! ### Methods -/

def toLower (c : UInt8) : UInt8 := if isUpper c then c + 0x20 else c

/-- The words of the rest of a name, after the given character and the beginning of a word. -/
def wordsAfter (before : Option UInt8) (word : Bytes) : Bytes → List Bytes
  | [] => [word]
  | c :: rest =>
    if c = 0x5F then word :: wordsAfter (some c) [] rest
    else if isUpper c && before.any (!isUpper ·) then word :: wordsAfter (some c) [toLower c] rest
    else wordsAfter (some c) (word ++ [toLower c]) rest

/-- The words of a method's name without regard to case. A word ends at an underscore and before a capital
    letter that does not follow another one. -/
def methodWords (name : Ident) : List Bytes := wordsAfter none [] name.val

theorem toLower_ne : ∀ c : UInt8, c ≠ 0x5F → 0x5F ≠ toLower c := by decide +kernel

theorem nameWords_snakeCaseAfter (before : Option UInt8) (word name : Bytes)
    (hword : (0x5F : UInt8) ∉ word) :
    nameWords (word ++ snakeCaseAfter before name) = wordsAfter before word name := by
  induction name generalizing before word with
  | nil =>
    rw [snakeCaseAfter, append_nil]
    exact splitOn_eq_singleton hword
  | cons c rest ih =>
    rw [wordsAfter]
    by_cases hscore : c = 0x5F
    · subst hscore
      rw [if_pos rfl, ← ih (some 0x5F) [] not_mem_nil]
      exact splitOn_append_cons_self_of_not_mem hword _
    have hlower := toLower_ne c hscore
    rw [if_neg hscore, snakeCaseAfter]
    cases hupper : isUpper c with
    | false =>
      have hsame : toLower c = c := by simp [toLower, hupper]
      rw [hsame] at hlower ⊢
      rw [if_neg (by simp), if_neg (by simp), ← ih _ _ (by simp [hword, hlower]), append_assoc,
        singleton_append]
    | true =>
      have hsame : c + 0x20 = toLower c := by simp [toLower, hupper]
      rw [if_pos rfl, hsame]
      cases hbefore : before.any (!isUpper ·) with
      | true =>
        rw [if_pos rfl, if_pos (by rfl), ← ih _ [toLower c] (by simpa using hlower)]
        exact splitOn_append_cons_self_of_not_mem hword _
      | false =>
        rw [if_neg (by simp), if_neg (by simp), ← ih _ _ (by simp [hword, hlower]), append_assoc]
        rfl

theorem cToSnakeCase_inj {name other : Ident} :
    cToSnakeCase name.val = cToSnakeCase other.val ↔ methodWords name = methodWords other := by
  rw [← nameWords_inj]
  exact iff_of_eq (congrArg₂ _ (nameWords_snakeCaseAfter none [] name.val not_mem_nil)
    (nameWords_snakeCaseAfter none [] other.val not_mem_nil))

theorem toLower_toUpper_snakeCaseAfter (before : Option UInt8) (name : Bytes) :
    ((snakeCaseAfter before name).map toUpper).map toLower = snakeCaseAfter before name := by
  have hkept : ∀ c, isUpper c = false → toLower (toUpper c) = c := by decide +kernel
  have hlowered : ∀ c, isUpper c = true → toLower (toUpper (c + 0x20)) = c + 0x20 := by decide +kernel
  have hscore : toLower (toUpper 0x5F) = 0x5F := by decide
  induction name generalizing before with
  | nil => rfl
  | cons c rest ih =>
    rw [snakeCaseAfter]
    split_ifs with hupper hbefore
    · simp [ascii, hlowered c hupper, ih, hscore]
    · simp [hlowered c hupper, ih]
    · simp [hkept c (by simpa using hupper), ih]

theorem methodMacro_inj {service : ServiceDef} {method other : MethodDef} :
    methodMacro ast service method = methodMacro ast service other ↔
      methodWords method.name = methodWords other.name := by
  rw [← cToSnakeCase_inj, methodMacro, methodMacro, append_right_inj]
  refine ⟨fun h => ?_, congrArg _⟩
  rw [cToSnakeCase, ← toLower_toUpper_snakeCaseAfter, ← cToSnakeCase, h]
  exact toLower_toUpper_snakeCaseAfter none other.name.val

theorem proxyFunction_inj {service : ServiceDef} {method other : MethodDef} :
    proxyFunction ast service method = proxyFunction ast service other ↔
      methodWords method.name = methodWords other.name := by
  rw [← cToSnakeCase_inj, proxyFunction, proxyFunction, append_right_inj]

/-! ### Types -/

/-- The type with every package name written out. -/
def TypeRef.qualified (package : Ident) : TypeRef → TypeRef
  | .custom given name => .custom (resolvePackage package given) name
  | .array element => .array (element.qualified package)
  | type => type

/-- The types declared in the header of a package or in one that it includes, each with the package that
    declares it: structs and the array types of the package. -/
inductive Declared (packages : Packages) (own : Ident) : Ident × TypeRef → Prop
  | struct {package name : Ident} : Sees packages own package name →
      Declared packages own (package, .custom package name)
  | array {package : Ident} {type : TypeRef} : Visible packages own package →
      InIdl packages package type → type.isArray = true →
      Declared packages own (package, type.qualified package)

/-- The words of a type as part of a name: those of its package and of its name, or those of its element
    and the word `array`. -/
def typeWords (package : Ident) : TypeRef → List Bytes
  | .prim primitive => nameWords (primitiveToken primitive)
  | .void => [ascii "void"]
  | .custom given name => nameWords (resolvePackage package given).val ++ nameWords name.val
  | .array element => typeWords package element ++ [ascii "array"]
  | .bareArray => [ascii "void", ascii "array"]

/-- The words of a declared type. Those of an array type follow its package. -/
def declaredWords (package : Ident) (type : TypeRef) : List Bytes :=
  (if type.isArray then nameWords package.val else []) ++ typeWords package type

theorem nameWords_cTypeToken (package : Ident) (type : TypeRef) :
    nameWords (cTypeToken package type) = typeWords package type := by
  induction type with
  | prim primitive => rfl
  | void => rfl
  | custom given name => exact nameWords_join _ _
  | array element ih =>
    have hjoin := nameWords_join (cTypeToken package element) (ascii "array")
    rw [append_assoc, ih] at hjoin
    exact hjoin
  | bareArray => rfl

theorem Declared.nameWords {packages : Packages} {own : Ident} {declared : Ident × TypeRef}
    (h : Declared packages own declared) :
    nameWords (cTypeName declared.1 declared.2) = declaredWords declared.1 declared.2 := by
  cases h with
  | struct => exact nameWords_cTypeToken _ (.custom _ _)
  | @array package type _ _ harray =>
    cases type with
    | array element =>
      change Idl.nameWords (_ ++ ascii "_" ++ cTypeToken package _) = _ ++ _
      rw [nameWords_join, nameWords_cTypeToken]
      rfl
    | bareArray =>
      change Idl.nameWords (_ ++ ascii "_" ++ cTypeToken package _) = _ ++ _
      rw [nameWords_join, nameWords_cTypeToken]
      rfl
    | _ => cases harray

namespace ClashFile

/-- A struct with the name that an array of bytes has inside its package. -/
def bytesName : Ident := ⟨ascii "uint8_t_array", by decide⟩

def methodNames : List Ident := [⟨ascii "getState", by decide⟩, ⟨ascii "get_state", by decide⟩]

def file : AstFile :=
  { CallFile.file methodNames with
    structs := [⟨bytesName, [⟨.array (.prim .uint8), ⟨ascii "data", by decide⟩⟩]⟩] }

end ClashFile

end OmniBinder.Idl
