/-
Module: OmniBinder.Proofs.IdlHashTraversal
Purpose: What a compatibility hash is meant to stand for, the layout of a type with every struct expanded
  to any depth; and one traversal of `hashTypeRef` over closed packages: the bound on the number of
  structs suffices, and every hash is a chain that starts from a text which tells the kinds of type
  apart.
Trusted boundary: none
Main exports: SameLayout.sameFields, hashTypeRef_chain
-/
import Mathlib.Data.List.Forall2
import OmniBinder.Proofs.ValidatorSpec
import OmniBinder.Idl.IdlHash

namespace OmniBinder.Idl

open OmniBinder List

/-- An expanded type. A struct below the depth of the expansion is cut off. -/
inductive Layout where
  | cut
  | prim (primitive : PrimitiveType)
  | void
  | bareArray
  | array (element : Layout)
  | struct (name : Bytes) (fields : List Layout)
  | unknown (name : Bytes)

/-- The field types of a struct of the package. -/
def structFields (packages : Packages) (package name : Ident) : Option (List TypeRef) :=
  match packages.find package.val with
  | none => none
  | some ast =>
    (ast.structs.find? fun definition => definition.name = name).map fun definition =>
      definition.fields.map FieldDef.type

def expandShape (expandStruct : Ident → Ident → Layout) : TypeRef → Layout
  | .prim primitive => .prim primitive
  | .void => .void
  | .bareArray => .bareArray
  | .array element => .array (expandShape expandStruct element)
  | .custom given name => expandStruct given name

/-- Expand structs to the given depth. -/
def expand (packages : Packages) : Nat → Ident → TypeRef → Layout
  | 0, _ => expandShape fun _ _ => .cut
  | depth + 1, package => expandShape fun given name =>
    match structFields packages (resolvePackage package given) name with
    | none => .unknown (qualify (resolvePackage package given) name)
    | some types =>
      .struct (qualify (resolvePackage package given) name)
        (types.map (expand packages depth (resolvePackage package given)))

/-- A type of a package in one set of packages and one in another expand alike at every depth. -/
def SameLayout (packages packages' : Packages) (package : Ident) (type : TypeRef) (package' : Ident)
    (type' : TypeRef) : Prop :=
  ∀ depth, expand packages depth package type = expand packages' depth package' type'

/-- The type has no parts: it is no array and no struct. -/
def isFlat : TypeRef → Bool
  | .array _ => false
  | .custom _ _ => false
  | _ => true

/-- Two arrays, two structs, or the same type without parts. -/
inductive SameForm : TypeRef → TypeRef → Prop where
  | flat {type : TypeRef} (hflat : isFlat type = true) : SameForm type type
  | array (element element' : TypeRef) : SameForm (.array element) (.array element')
  | custom (given name given' name' : Ident) : SameForm (.custom given name) (.custom given' name')

section
variable {packages packages' : Packages} {package package' : Ident}
  {hashField : TypeRef → Visited → Option (H × Visited)}

/-- Types with the same layout have the same outermost form. -/
theorem SameLayout.form {type type' : TypeRef}
    (h : SameLayout packages packages' package type package' type') : SameForm type type' := by
  have hzero := h 0
  cases type <;> cases type' <;>
    first | exact .array .. | exact .custom .. | (cases hzero; exact .flat rfl) | cases hzero

theorem expand_array (depth : Nat) (element : TypeRef) :
    expand packages depth package (.array element) =
      .array (expand packages depth package element) := by
  cases depth with
  | zero => rfl
  | succ depth => rfl

theorem sameLayout_array {element element' : TypeRef} :
    SameLayout packages packages' package (.array element) package' (.array element') ↔
      SameLayout packages packages' package element package' element' := by
  simp only [SameLayout, expand_array, Layout.array.injEq]

/-- Families of functions agree on two lists when they do so place by place. -/
theorem forall_map_eq_iff {α β γ : Type} {f : Nat → α → γ} {g : Nat → β → γ} {first : List α}
    {second : List β} :
    (∀ n, first.map (f n) = second.map (g n)) ↔
      List.Forall₂ (fun a b => ∀ n, f n a = g n b) first second := by
  induction first generalizing second with
  | nil =>
    cases second with
    | nil => simp
    | cons b second => simp
  | cons a first ih =>
    cases second with
    | nil => simp
    | cons b second =>
      simp only [map_cons, List.cons.injEq, forall₂_cons, ← ih]
      exact forall_and

/-- Structs of the same layout have the same name, and their fields have the same layouts. -/
theorem SameLayout.fields {given name given' name' : Ident} {types types' : List TypeRef}
    (htypes : structFields packages (resolvePackage package given) name = some types)
    (htypes' : structFields packages' (resolvePackage package' given') name' = some types')
    (h : SameLayout packages packages' package (.custom given name) package' (.custom given' name')) :
    qualify (resolvePackage package given) name = qualify (resolvePackage package' given') name' ∧
      List.Forall₂ (fun type type' => SameLayout packages packages' (resolvePackage package given) type
        (resolvePackage package' given') type') types types' := by
  have hsucc := fun depth => h (depth + 1)
  simp only [expand, expandShape, htypes, htypes', Layout.struct.injEq, forall_and, forall_const] at hsucc
  exact ⟨hsucc.1, forall_map_eq_iff.1 hsucc.2⟩

end

/-! ### Structs that a type reaches -/

/-- The type names the struct, or an element or a field does, at some depth. -/
inductive Reaches (packages : Packages) (target name : Ident) : Ident → TypeRef → Prop where
  | here {package given : Ident} (h : resolvePackage package given = target) :
      Reaches packages target name package (.custom given name)
  | element {package : Ident} {element : TypeRef} (h : Reaches packages target name package element) :
      Reaches packages target name package (.array element)
  | field {package given owner : Ident} {types : List TypeRef} {type : TypeRef}
      (htypes : structFields packages (resolvePackage package given) owner = some types)
      (hmem : type ∈ types) (h : Reaches packages target name (resolvePackage package given) type) :
      Reaches packages target name package (.custom given owner)

/-- The struct is defined in both sets of packages, with field types of the same layouts in the same
    order. -/
def SameFields (packages packages' : Packages) (package name : Ident) : Prop :=
  ∃ types types', structFields packages package name = some types ∧
    structFields packages' package name = some types' ∧
    List.Forall₂ (fun type type' => SameLayout packages packages' package type package type') types types'

/-- Every reference in the packages resolves. -/
def Closed (packages : Packages) : Prop :=
  ∀ name file, packages.find name = some file → FileResolves packages file

section
variable {packages packages' : Packages}

/-- A defined struct has field types, and in closed packages they resolve. -/
theorem structFields_of_defines {package name : Ident} (hdefines : Defines packages package name) :
    ∃ ast definition, packages.find package.val = some ast ∧ ast.packageName = package ∧
      definition ∈ ast.structs ∧
      (ast.structs.find? fun definition => definition.name = name) = some definition ∧
      structFields packages package name = some (definition.fields.map FieldDef.type) := by
  obtain ⟨ast, hfind, definition, hdefinition, hname⟩ := hdefines
  have hsome : (ast.structs.find? fun definition => definition.name = name).isSome := by
    rw [find?_isSome]
    exact ⟨definition, hdefinition, by simp [hname]⟩
  obtain ⟨found, hfound⟩ := Option.isSome_iff_exists.mp hsome
  refine ⟨ast, found, hfind, Subtype.ext (packages.find_packageName hfind),
    mem_of_find?_eq_some hfound, hfound, ?_⟩
  simp [structFields, hfind, hfound]

theorem Closed.resolves_field (hclosed : Closed packages) {package name : Ident}
    {types : List TypeRef} (htypes : structFields packages package name = some types)
    {type : TypeRef} (htype : type ∈ types) : Resolves packages package type := by
  unfold structFields at htypes
  split at htypes
  · cases htypes
  next ast hfind =>
    obtain ⟨definition, hdefinition, rfl⟩ := Option.map_eq_some_iff.mp htypes
    obtain ⟨field, hfield, rfl⟩ := List.mem_map.mp htype
    have hresolves := (hclosed _ ast hfind).structs definition
      (mem_of_find?_eq_some hdefinition) field hfield
    rwa [show ast.packageName = package from Subtype.ext (packages.find_packageName hfind)]
      at hresolves

/-- A member of the first list has a partner in the second. -/
theorem forall₂_exists_of_mem {α β : Type} {R : α → β → Prop} {first : List α} {second : List β}
    (h : List.Forall₂ R first second) {a : α} (ha : a ∈ first) : ∃ b ∈ second, R a b := by
  induction h with
  | nil => cases ha
  | cons hab _ ih =>
    cases ha with
    | head => exact ⟨_, mem_cons_self, hab⟩
    | tail _ ha =>
      obtain ⟨b, hb, hr⟩ := ih ha
      exact ⟨b, mem_cons_of_mem _ hb, hr⟩

/-- Types of the same layout reach the same structs, with the same fields. -/
theorem SameLayout.sameFields (hclosed : Closed packages) (hclosed' : Closed packages')
    {target name package : Ident} {type : TypeRef}
    (hreaches : Reaches packages target name package type) :
    ∀ {package' : Ident} {type' : TypeRef}, Resolves packages package type →
      Resolves packages' package' type' → SameLayout packages packages' package type package' type' →
        SameFields packages packages' target name := by
  induction hreaches with
  | here htarget =>
    intro package' type' hresolves hresolves' hsame
    cases hsame.form with
    | flat hflat => cases hflat
    | custom =>
      obtain ⟨_, _, _, _, _, _, htypes⟩ := structFields_of_defines hresolves
      obtain ⟨_, _, _, _, _, _, htypes'⟩ := structFields_of_defines hresolves'
      obtain ⟨hname, hfields⟩ := hsame.fields htypes htypes'
      obtain ⟨hpackage, rfl⟩ := qualify_inj hname
      subst htarget
      rw [← hpackage] at htypes' hfields
      exact ⟨_, _, htypes, htypes', hfields⟩
  | element _ ih =>
    intro package' type' hresolves hresolves' hsame
    cases hsame.form with
    | flat hflat => cases hflat
    | array _ element' =>
      have helement : Resolves packages' package' element' := hresolves'
      exact ih hresolves helement (sameLayout_array.mp hsame)
  | field htypes hmem _ ih =>
    intro package' type' hresolves hresolves' hsame
    cases hsame.form with
    | flat hflat => cases hflat
    | custom =>
      obtain ⟨_, _, _, _, _, _, htypes'⟩ := structFields_of_defines hresolves'
      obtain ⟨partner, hpartner, hpair⟩ := forall₂_exists_of_mem (hsame.fields htypes htypes').2 hmem
      exact ih (hclosed.resolves_field htypes hmem) (hclosed'.resolves_field htypes' hpartner) hpair

end

variable {type : TypeRef} {types : List TypeRef} {packages : Packages} {given name : Ident}
  {names : List Bytes}

variable {visited after : Visited} {ast : AstFile} {fuel : Nat}

/-! ### Hashes of lists of types -/

section
variable {H : Type} {hasher : Hasher H}

/-- The hashes of the types in order, before they are mixed. -/
def hashEach (hashField : TypeRef → Visited → Option (H × Visited)) :
    List TypeRef → Visited → Option (List H × Visited)
  | [], visited => some ([], visited)
  | type :: types, visited =>
    match hashField type visited with
    | none => none
    | some (hash, visited) =>
      match hashEach hashField types visited with
      | none => none
      | some (hashes, visited) => some (hash :: hashes, visited)

theorem hashEach_cons {hashes : List H} :
    hashEach hashField (type :: types) visited = some (hashes, after) ↔
      ∃ hash middle others, hashField type visited = some (hash, middle) ∧
        hashEach hashField types middle = some (others, after) ∧ hashes = hash :: others := by
  constructor
  · intro h
    rw [hashEach] at h
    split at h
    · cases h
    next hash middle hfirst =>
      split at h
      · cases h
      · next others last hrest =>
          cases h
          exact ⟨hash, middle, others, hfirst, hrest, rfl⟩
  · rintro ⟨hash, middle, others, hfirst, hrest, rfl⟩
    simp [hashEach, hfirst, hrest]

/-- Hashing fields is a chain of their hashes. -/
theorem hashFields_eq_chain : ∀ {first hash : H} {visited after : Visited},
      hashFields hasher hashField first types visited = some (hash, after) ↔
        ∃ hashes, hashEach hashField types visited = some (hashes, after) ∧
          hash = hasher.chain first hashes := by
  induction types with
  | nil =>
    intro first hash visited after
    simp only [hashFields, hashEach, Option.some.injEq, Prod.mk.injEq]
    constructor
    · rintro ⟨rfl, rfl⟩
      exact ⟨[], ⟨rfl, rfl⟩, rfl⟩
    · rintro ⟨hashes, ⟨rfl, rfl⟩, rfl⟩
      exact ⟨rfl, rfl⟩
  | cons type types ih =>
    intro first hash visited after
    constructor
    · intro h
      rw [hashFields] at h
      split at h
      · cases h
      · next field middle hfield =>
          obtain ⟨others, hothers, rfl⟩ := ih.mp h
          exact ⟨field :: others, hashEach_cons.mpr ⟨field, middle, others, hfield, hothers, rfl⟩, rfl⟩
    · rintro ⟨hashes, hhashes, rfl⟩
      obtain ⟨field, middle, others, hfield, hothers, rfl⟩ := hashEach_cons.mp hhashes
      rw [hashFields, hfield]
      exact ih.mpr ⟨others, hothers, rfl⟩

/-! ### One struct -/

/-- The package is the one under its name. -/
def IsLoaded (packages : Packages) (ast : AstFile) : Prop :=
  packages.find ast.packageName.val = some ast

theorem findTypeAst_eq (hloaded : IsLoaded packages ast) (package : Ident) :
    findTypeAst ast packages package = packages.find package.val := by
  unfold findTypeAst
  split_ifs with hown
  · rw [← hown]
    exact hloaded.symm
  · rfl

/-- A defined struct is hashed as its name if it has been expanded before, and otherwise as its name with
    the hashes of its fields mixed in. -/
theorem hashCustom_spec (hasher : Hasher H)
    (hashField : AstFile → TypeRef → Visited → Option (H × Visited))
    (hloaded : IsLoaded packages ast)
    (hdefines : Defines packages (resolvePackage ast.packageName given) name) :
    ∃ typeAst types, IsLoaded packages typeAst ∧
      typeAst.packageName = resolvePackage ast.packageName given ∧
      structFields packages (resolvePackage ast.packageName given) name = some types ∧
      ∀ {visited after : Visited} {hash : H},
        hashCustom hasher packages hashField ast given name visited = some (hash, after) ↔
          (qualify (resolvePackage ast.packageName given) name ∈ visited ∧ after = visited ∧
              hash = hasher.hash (qualify (resolvePackage ast.packageName given) name)) ∨
            (qualify (resolvePackage ast.packageName given) name ∉ visited ∧
              ∃ hashes, hashEach (hashField typeAst) types
                  (qualify (resolvePackage ast.packageName given) name :: visited) =
                    some (hashes, after) ∧ hash = hasher.chain
                  (hasher.hash (qualify (resolvePackage ast.packageName given) name)) hashes) := by
  obtain ⟨typeAst, definition, hfind, hpackage, _, hfound, htypes⟩ := structFields_of_defines hdefines
  refine ⟨typeAst, definition.fields.map FieldDef.type, by rw [IsLoaded, hpackage]; exact hfind,
    hpackage, htypes, ?_⟩
  intro visited after hash
  unfold hashCustom
  dsimp only
  split_ifs with hvisited
  · simp only [hvisited, true_and, not_true_eq_false, false_and, or_false, Option.some.injEq,
      Prod.mk.injEq]
    constructor
    · rintro ⟨rfl, rfl⟩
      exact ⟨rfl, rfl⟩
    · rintro ⟨rfl, rfl⟩
      exact ⟨rfl, rfl⟩
  · rw [findTypeAst_eq hloaded, hfind]
    dsimp only
    rw [hfound]
    simp only [hvisited, false_and, not_false_eq_true, true_and, false_or]
    exact hashFields_eq_chain

/-! ### The traversal comes to its end -/

/-- How many of the names have not been expanded. -/
def unvisited (names : List Bytes) (visited : Visited) : Nat :=
  (names.filter fun name => decide (name ∉ visited)).length

theorem unvisited_le (h : visited ⊆ after) :
    unvisited names after ≤ unvisited names visited := by
  apply List.Sublist.length_le
  apply monotone_filter_right
  intro name hname
  simp only [decide_eq_true_eq] at hname ⊢
  exact fun hmem => hname (h hmem)

theorem unvisited_cons_lt {name : Bytes} (hname : name ∈ names)
    (hfresh : name ∉ visited) : unvisited names (name :: visited) < unvisited names visited := by
  have hfilter : (names.filter fun other => decide (other ∉ name :: visited)) =
      (names.filter fun other => decide (other ∉ visited)).filter fun other => decide (other ≠ name) := by
    rw [List.filter_filter]
    congr 1
    funext other
    simp only [mem_cons, not_or, Bool.decide_and]
  rw [unvisited, unvisited, hfilter, length_filter_lt_length_iff_exists]
  exact ⟨name, List.mem_filter.mpr ⟨hname, by simpa using hfresh⟩, by simp⟩

/-- Totality of the hash of each type carries over to lists of types. -/
theorem hashEach_total
    {bound : Nat}
    (hfield : ∀ type ∈ types, ∀ visited, unvisited names visited < bound →
      ∃ hash after, hashField type visited = some (hash, after) ∧ visited ⊆ after) :
    ∀ {visited : Visited}, unvisited names visited < bound →
      ∃ hashes after, hashEach hashField types visited = some (hashes, after) ∧ visited ⊆ after := by
  induction types with
  | nil => exact fun {visited} _ => ⟨[], visited, rfl, List.Subset.refl visited⟩
  | cons type types ih =>
    intro visited hbound
    obtain ⟨hash, middle, hfirst, hsub⟩ := hfield type mem_cons_self visited hbound
    obtain ⟨others, after, hrest, hsub'⟩ := ih
      (fun type htype => hfield type (mem_cons_of_mem _ htype))
      (lt_of_le_of_lt (unvisited_le hsub) hbound)
    exact ⟨hash :: others, after, hashEach_cons.mpr ⟨hash, middle, others, hfirst, hrest, rfl⟩,
      List.Subset.trans hsub hsub'⟩

/-- With more fuel than structs left to expand, there is a hash. -/
theorem hashTypeRef_total (hasher : Hasher H) (hclosed : Closed packages)
    (hnames : ∀ package name, Defines packages package name → qualify package name ∈ names) :
    ∀ {ast : AstFile} {type : TypeRef} (visited : Visited), IsLoaded packages ast →
      Resolves packages ast.packageName type → unvisited names visited < fuel →
        ∃ hash after, hashTypeRef hasher packages fuel ast type visited = some (hash, after) ∧
          visited ⊆ after := by
  induction fuel with
  | zero => exact fun _ _ _ hbound => absurd hbound (Nat.not_lt_zero _)
  | succ fuel ihfuel =>
    intro ast type visited hloaded hresolves hbound
    induction type with
    | prim primitive => exact ⟨_, visited, rfl, List.Subset.refl visited⟩
    | void => exact ⟨_, visited, rfl, List.Subset.refl visited⟩
    | bareArray => exact ⟨_, visited, rfl, List.Subset.refl visited⟩
    | array element ih =>
      obtain ⟨hash, after, hhash, hsub⟩ := ih hresolves
      refine ⟨hasher.combine (hasher.hash (ascii "[]")) hash, after, ?_, hsub⟩
      rw [hashTypeRef] at hhash ⊢
      rw [hashShape, hhash]
    | custom given name =>
      obtain ⟨typeAst, types, hloaded', hpackage, htypes, hspec⟩ :=
        hashCustom_spec hasher (hashTypeRef hasher packages fuel) hloaded hresolves
      by_cases hvisited : qualify (resolvePackage ast.packageName given) name ∈ visited
      · exact ⟨_, visited, hspec.mpr (.inl ⟨hvisited, rfl, rfl⟩), List.Subset.refl visited⟩
      -- one struct fewer is left while its fields are hashed
      have hless := unvisited_cons_lt (hnames _ _ hresolves) hvisited
      obtain ⟨hashes, after, hhashes, hsub⟩ := hashEach_total
        (fun type htype visited hbound => ihfuel visited hloaded'
          (hpackage ▸ hclosed.resolves_field htypes htype) hbound)
        (Nat.lt_of_lt_of_le hless (Nat.le_of_lt_succ hbound))
      exact ⟨_, after, hspec.mpr (.inr ⟨hvisited, hashes, hhashes, rfl⟩),
        fun q hq => hsub (mem_cons_of_mem _ hq)⟩

end

/-! ### What the hash of a type starts from -/

/-- The text at the start of the hash of a type. -/
def headText (package : Ident) : TypeRef → Bytes
  | .array _ => ascii "[]"
  | .bareArray => ascii "[]"
  | .custom given name => qualify (resolvePackage package given) name
  | .prim primitive => primitiveHashName primitive
  | .void => ascii "void"

theorem primitiveHashName_inj {primitive primitive' : PrimitiveType}
    (h : primitiveHashName primitive = primitiveHashName primitive') : primitive = primitive' := by
  revert h
  cases primitive <;> cases primitive' <;> decide

/-- What a start says of its type: the name of a struct is the only one with a dot in it. -/
def textKind (text : Bytes) : Nat :=
  if 0x2E ∈ text then 0 else if text = ascii "[]" then 1 else if text = ascii "void" then 2 else 3

theorem textKind_headText (package : Ident) (type : TypeRef) :
    textKind (headText package type) = match type with
      | .custom _ _ => 0
      | .array _ | .bareArray => 1
      | .void => 2
      | .prim _ => 3 := by
  cases type with
  | custom given name => simp [textKind, headText, qualify]
  | prim primitive => cases primitive <;> rfl
  | array | bareArray | void => rfl

/-- The start of a hash tells the kinds of type apart, but for an array without an element type. -/
theorem form_of_headText {package package' : Ident} {type' : TypeRef}
    (h : headText package type = headText package' type')
    (harray : ∀ element, type = .array element → type' ≠ .bareArray)
    (harray' : ∀ element, type' = .array element → type ≠ .bareArray) : SameForm type type' := by
  have hkind := congrArg textKind h
  rw [textKind_headText, textKind_headText] at hkind
  cases type <;> cases type' <;> first
    | exact .array .. | exact .custom .. | exact .flat rfl
    | exact absurd rfl (harray _ rfl) | exact absurd rfl (harray' _ rfl)
    | exact primitiveHashName_inj h ▸ .flat rfl
    | cases hkind

section
variable {H : Type} {hasher : Hasher H} {packages : Packages}

theorem hashTypeRef_flat (hflat : isFlat type = true) (visited : Visited) :
    hashTypeRef hasher packages fuel ast type visited =
      some (hasher.hash (headText ast.packageName type), visited) := by
  cases fuel with
  | zero =>
    cases type with
    | array element => cases hflat
    | custom given name => cases hflat
    | _ => rfl
  | succ fuel =>
    cases type with
    | array element => cases hflat
    | custom given name => cases hflat
    | _ => rfl

theorem hashTypeRef_array {element : TypeRef} {hash : H} :
    hashTypeRef hasher packages fuel ast (.array element) visited = some (hash, after) ↔
      ∃ inner, hashTypeRef hasher packages fuel ast element visited = some (inner, after) ∧
        hash = hasher.chain (hasher.hash (ascii "[]")) [inner] := by
  have hshape : ∀ {hashStruct : Ident → Ident → Visited → Option (H × Visited)},
      hashShape hasher hashStruct (.array element) visited = some (hash, after) ↔
        ∃ inner, hashShape hasher hashStruct element visited = some (inner, after) ∧
          hash = hasher.chain (hasher.hash (ascii "[]")) [inner] := by
    intro hashStruct
    rw [hashShape]
    cases hashShape hasher hashStruct element visited with
    | none => simp
    | some result =>
      obtain ⟨inner, last⟩ := result
      simp only [Option.some.injEq, Prod.mk.injEq]
      constructor
      · rintro ⟨rfl, rfl⟩
        exact ⟨inner, ⟨rfl, rfl⟩, rfl⟩
      · rintro ⟨_, ⟨rfl, rfl⟩, rfl⟩
        exact ⟨rfl, rfl⟩
  cases fuel with
  | zero => exact hshape
  | succ fuel => exact hshape

/-- The fuel is not used up before a struct is reached. -/
theorem hashTypeRef_custom {hash : H} (hloaded : IsLoaded packages ast)
    (hdefines : Defines packages (resolvePackage ast.packageName given) name)
    (h : hashTypeRef hasher packages fuel ast (.custom given name) visited = some (hash, after)) :
    ∃ fuel' typeAst types hashes, fuel = fuel' + 1 ∧ IsLoaded packages typeAst ∧
      typeAst.packageName = resolvePackage ast.packageName given ∧
      structFields packages (resolvePackage ast.packageName given) name = some types ∧
      hash = hasher.chain (hasher.hash (qualify (resolvePackage ast.packageName given) name)) hashes ∧
      ((qualify (resolvePackage ast.packageName given) name ∈ visited ∧ after = visited ∧ hashes = []) ∨
        (qualify (resolvePackage ast.packageName given) name ∉ visited ∧
          hashEach (hashTypeRef hasher packages fuel' typeAst) types
            (qualify (resolvePackage ast.packageName given) name :: visited) =
              some (hashes, after))) := by
  cases fuel with
  | zero => cases h
  | succ fuel =>
    obtain ⟨typeAst, types, hloaded', hpackage, htypes, hspec⟩ :=
      hashCustom_spec hasher (hashTypeRef hasher packages fuel) hloaded hdefines
    rcases hspec.mp h with ⟨hvisited, hafter, hhash⟩ | ⟨hfresh, hashes, hhashes, hhash⟩
    · exact ⟨fuel, typeAst, types, [], rfl, hloaded', hpackage, htypes, hhash,
        .inl ⟨hvisited, hafter, rfl⟩⟩
    · exact ⟨fuel, typeAst, types, hashes, rfl, hloaded', hpackage, htypes, hhash,
        .inr ⟨hfresh, hhashes⟩⟩

/-- Every hash is a chain that starts from the text of its type, and for a flat type nothing else. -/
theorem hashTypeRef_chain {hash : H} (hloaded : IsLoaded packages ast)
    (hresolves : Resolves packages ast.packageName type)
    (h : hashTypeRef hasher packages fuel ast type visited = some (hash, after)) :
    ∃ hashes, hash = hasher.chain (hasher.hash (headText ast.packageName type)) hashes ∧
      (isFlat type = true → hashes = []) ∧ (∀ element, type = .array element → hashes ≠ []) := by
  cases type with
  | array element =>
    obtain ⟨inner, _, rfl⟩ := hashTypeRef_array.mp h
    exact ⟨[inner], rfl, by simp [isFlat], by simp⟩
  | custom given name =>
    obtain ⟨_, _, _, hashes, _, _, _, _, hhash, _⟩ := hashTypeRef_custom hloaded hresolves h
    exact ⟨hashes, hhash, by simp [isFlat], by simp⟩
  | _ =>
    rw [hashTypeRef_flat rfl] at h
    cases h
    exact ⟨[], rfl, fun _ => rfl, by simp⟩

end

end OmniBinder.Idl
