/-
Module: OmniBinder.Proofs.IdlHashSpec
Purpose: With a hasher without collisions, the compatibility hashes of two accepted sets of packages are
  equal exactly when names and layouts are.
Trusted boundary: none
Main exports: Matched, idl_hashes_eq_iff
-/
import OmniBinder.Proofs.IdlHashTraversal

namespace OmniBinder.Idl

open OmniBinder List

variable {ast' : AstFile}

variable {H : Type}

/-! ### Equal hashes: the traversals in lock step -/

/-- The two types have the same form, and the structs they name are the same and have been expanded. -/
inductive Matched (visited : Visited) (package package' : Ident) : TypeRef → TypeRef → Prop where
  | flat {type : TypeRef} (hflat : isFlat type = true) : Matched visited package package' type type
  | array {element element' : TypeRef} (h : Matched visited package package' element element') :
      Matched visited package package' (.array element) (.array element')
  | custom {given name given' name' : Ident}
      (hname : qualify (resolvePackage package given) name =
        qualify (resolvePackage package' given') name')
      (hvisited : qualify (resolvePackage package given) name ∈ visited) :
      Matched visited package package' (.custom given name) (.custom given' name')

variable {visited after : Visited} {package package' : Ident} {type type' : TypeRef}

theorem Matched.mono (hsub : visited ⊆ after) (h : Matched visited package package' type type') :
    Matched after package package' type type' := by
  induction h with
  | flat hflat => exact .flat hflat
  | array _ ih => exact .array ih
  | custom hname hvisited => exact .custom hname (hsub hvisited)

/-- The struct of this name has matching fields on both sides. -/
def StructMatched (packages packages' : Packages) (visited : Visited) (fqn : Bytes) : Prop :=
  ∀ package name, fqn = qualify package name → ∃ types types',
    structFields packages package name = some types ∧
      structFields packages' package name = some types' ∧
      List.Forall₂ (Matched visited package package) types types'

/-- A stretch of the traversals: the structs expanded in it have matching fields on both sides. -/
structure Explored (packages packages' : Packages) (visited after : Visited) : Prop where
  subset : visited ⊆ after
  matched : ∀ fqn ∈ after, fqn ∉ visited → StructMatched packages packages' after fqn

variable {fuel : Nat} {ast : AstFile}

section
variable {packages packages' : Packages}

theorem StructMatched.mono (hsub : visited ⊆ after) {fqn : Bytes}
    (h : StructMatched packages packages' visited fqn) :
    StructMatched packages packages' after fqn := by
  intro package name hfqn
  obtain ⟨types, types', htypes, htypes', hmatched⟩ := h package name hfqn
  exact ⟨types, types', htypes, htypes', hmatched.imp fun _ _ => Matched.mono hsub⟩

theorem Explored.refl (visited : Visited) : Explored packages packages' visited visited :=
  ⟨List.Subset.refl visited, fun _ hmem hfresh => absurd hmem hfresh⟩

theorem Explored.trans {middle : Visited} (hfirst : Explored packages packages' visited middle)
    (hsecond : Explored packages packages' middle after) :
    Explored packages packages' visited after where
  subset := List.Subset.trans hfirst.subset hsecond.subset
  matched fqn hmem hfresh := by
    by_cases hmiddle : fqn ∈ middle
    · exact (hfirst.matched fqn hmiddle hfresh).mono hsecond.subset
    · exact hsecond.matched fqn hmem hmiddle

/-- After the fields of a struct, the struct itself has been explored as well. -/
theorem Explored.of_fields {fqn : Bytes} (h : Explored packages packages' (fqn :: visited) after)
    (hstruct : StructMatched packages packages' after fqn) :
    Explored packages packages' visited after where
  subset := fun q hq => h.subset (mem_cons_of_mem _ hq)
  matched := by
    intro q hmem hfresh
    by_cases hq : q = fqn
    · rw [hq]
      exact hstruct
    · exact h.matched q hmem (by simp [hq, hfresh])

/-- Two ways to hash types go in lock step: equal hashes or the same layouts, from the same set of expanded
    types, give equal hashes, the same set, matching types and matching structs. -/
def Lockstep {H : Type} (packages packages' : Packages) (package package' : Ident)
    (hashField hashField' : TypeRef → Visited → Option (H × Visited)) (type type' : TypeRef) : Prop :=
  ∀ {visited after after' : Visited} {hash hash' : H}, hashField type visited = some (hash, after) →
    hashField' type' visited = some (hash', after') →
    hash = hash' ∨ SameLayout packages packages' package type package' type' →
      hash = hash' ∧ after = after' ∧ Matched after package package' type type' ∧
        Explored packages packages' visited after

theorem hashEach_lockstep
    {hashField hashField' : TypeRef → Visited → Option (H × Visited)} {types : List TypeRef} :
    ∀ {types' : List TypeRef} {visited after after' : Visited} {hashes hashes' : List H},
      (∀ type ∈ types, ∀ type' ∈ types',
        Lockstep packages packages' package package' hashField hashField' type type') →
      hashEach hashField types visited = some (hashes, after) →
      hashEach hashField' types' visited = some (hashes', after') →
      hashes = hashes' ∨ List.Forall₂ (fun type type' =>
        SameLayout packages packages' package type package' type') types types' →
        hashes = hashes' ∧ after = after' ∧ List.Forall₂ (Matched after package package') types types' ∧
          Explored packages packages' visited after := by
  induction types with
  | nil =>
    intro types' visited after after' hashes hashes' _ h h' hsame
    cases h
    cases types' with
    | nil =>
      cases h'
      exact ⟨rfl, rfl, .nil, .refl _⟩
    | cons type' types' =>
      obtain ⟨_, _, _, _, _, rfl⟩ := hashEach_cons.mp h'
      rcases hsame with hsame | hsame <;> cases hsame
  | cons type types ih =>
    intro types' visited after after' hashes hashes' hlockstep h h' hsame
    obtain ⟨hash, middle, others, hfirst, hrest, rfl⟩ := hashEach_cons.mp h
    cases types' with
    | nil =>
      cases h'
      rcases hsame with hsame | hsame <;> cases hsame
    | cons type' types' =>
      obtain ⟨hash', middle', others', hfirst', hrest', rfl⟩ := hashEach_cons.mp h'
      rw [List.cons.injEq, forall₂_cons] at hsame
      obtain ⟨rfl, rfl, hmatched, hexplored⟩ := hlockstep type mem_cons_self type' mem_cons_self
        hfirst hfirst' (hsame.imp And.left And.left)
      obtain ⟨rfl, rfl, hmatcheds, hexploreds⟩ := ih
        (fun t ht t' ht' => hlockstep t (mem_cons_of_mem _ ht) t' (mem_cons_of_mem _ ht'))
        hrest hrest' (hsame.imp And.right And.right)
      exact ⟨rfl, rfl, .cons (hmatched.mono hexploreds.subset) hmatcheds, hexplored.trans hexploreds⟩

/-- Equal hashes come from types of the same form. -/
theorem hashTypeRef_form {hasher : Hasher H} (hfree : hasher.Free) {fuel' : Nat}
    {after' : Visited} {hash hash' : H}
    (hloaded : IsLoaded packages ast) (hloaded' : IsLoaded packages' ast')
    (hresolves : Resolves packages ast.packageName type)
    (hresolves' : Resolves packages' ast'.packageName type')
    (h : hashTypeRef hasher packages fuel ast type visited = some (hash, after))
    (h' : hashTypeRef hasher packages' fuel' ast' type' visited = some (hash', after'))
    (hsame : hash = hash' ∨ SameLayout packages packages' ast.packageName type ast'.packageName type') :
    SameForm type type' := by
  rcases hsame with rfl | hsame
  · obtain ⟨hashes, hhash, hflat, harray⟩ := hashTypeRef_chain hloaded hresolves h
    obtain ⟨hashes', hhash', hflat', harray'⟩ := hashTypeRef_chain hloaded' hresolves' h'
    obtain ⟨htext, rfl⟩ := hfree.chain_inj (hhash.symm.trans hhash')
    refine form_of_headText htext (fun element htype hbare => ?_) fun element htype hbare => ?_
    · exact harray element htype (hflat' (hbare ▸ rfl))
    · exact harray' element htype (hflat (hbare ▸ rfl))
  · exact hsame.form

/-- Structs: the names are equal, so both were expanded before or both are expanded now. -/
theorem lockstep_custom {hasher : Hasher H} (hfree : hasher.Free)
    (hclosed : Closed packages) (hclosed' : Closed packages') {fuel' : Nat}
    (hfields : ∀ {smaller smaller' : Nat} {file file' : AstFile} {type type' : TypeRef}, smaller < fuel → IsLoaded packages file → IsLoaded packages' file' → Resolves packages file.packageName type → Resolves packages' file'.packageName type' → Lockstep packages packages' file.packageName file'.packageName (hashTypeRef hasher packages smaller file) (hashTypeRef hasher packages' smaller' file') type type')
    {given name given' name' : Ident} (hloaded : IsLoaded packages ast)
    (hloaded' : IsLoaded packages' ast')
    (hdefines : Defines packages (resolvePackage ast.packageName given) name)
    (hdefines' : Defines packages' (resolvePackage ast'.packageName given') name') :
    Lockstep packages packages' ast.packageName ast'.packageName
      (hashTypeRef hasher packages fuel ast) (hashTypeRef hasher packages' fuel' ast')
      (.custom given name) (.custom given' name') := by
  intro visited after after' hash hash' h h' hsame
  obtain ⟨smaller, file, types, hashes, rfl, hfile, hpackage, htypes, rfl, hcases⟩ :=
    hashTypeRef_custom hloaded hdefines h
  obtain ⟨smaller', file', types', hashes', rfl, hfile', hpackage', htypes', rfl, hcases'⟩ :=
    hashTypeRef_custom hloaded' hdefines' h'
  have hname : qualify (resolvePackage ast.packageName given) name =
      qualify (resolvePackage ast'.packageName given') name' :=
    hsame.elim (fun heq => (hfree.chain_inj heq).1) fun hlayout => (hlayout.fields htypes htypes').1
  rw [← hname] at hcases' ⊢
  rcases hcases with ⟨hvisited, rfl, rfl⟩ | ⟨hfresh, hhashes⟩
  · rcases hcases' with ⟨_, rfl, rfl⟩ | ⟨hfresh', _⟩
    · exact ⟨rfl, rfl, .custom hname hvisited, .refl _⟩
    · exact absurd hvisited hfresh'
  · rcases hcases' with ⟨hvisited', _, _⟩ | ⟨_, hhashes'⟩
    · exact absurd hvisited' hfresh
    obtain ⟨rfl, rfl, hmatched, hexplored⟩ := hashEach_lockstep
      (fun type htype type' htype' => hfields (Nat.lt_succ_self smaller) hfile hfile'
        (hpackage ▸ hclosed.resolves_field htypes htype)
        (hpackage' ▸ hclosed'.resolves_field htypes' htype')) hhashes hhashes'
      (hsame.imp (fun heq => (hfree.chain_inj heq).2) fun hlayout => by
        rw [hpackage, hpackage']
        exact (hlayout.fields htypes htypes').2)
    have hstruct : StructMatched packages packages' after
        (qualify (resolvePackage ast.packageName given) name) := by
      intro package name₀ hfqn
      obtain ⟨rfl, rfl⟩ := qualify_inj hfqn
      obtain ⟨hpackages, rfl⟩ := qualify_inj hname
      rw [← hpackages] at htypes'
      rw [hpackage, hpackage', ← hpackages] at hmatched
      exact ⟨types, types', htypes, htypes', hmatched⟩
    exact ⟨rfl, rfl, .custom hname (hexplored.subset mem_cons_self), hexplored.of_fields hstruct⟩

/-- Equal hashes come from matching types, and types of the same layout have equal hashes. -/
theorem hashTypeRef_lockstep {hasher : Hasher H} (hfree : hasher.Free)
    (hclosed : Closed packages) (hclosed' : Closed packages') :
    ∀ {fuel' : Nat} {ast ast' : AstFile} {type type' : TypeRef}, IsLoaded packages ast →
      IsLoaded packages' ast' → Resolves packages ast.packageName type →
      Resolves packages' ast'.packageName type' →
        Lockstep packages packages' ast.packageName ast'.packageName
          (hashTypeRef hasher packages fuel ast) (hashTypeRef hasher packages' fuel' ast') type type' := by
  -- on the fuel for the fields of structs, inside it on the type for the elements of arrays
  induction fuel using Nat.strongRecOn with
  | ind fuel ihfuel =>
    intro fuel' ast ast' type type' hloaded hloaded' hresolves hresolves'
    induction type generalizing type' with
    | array element ih =>
      intro visited after after' hash hash' h h' hsame
      cases hashTypeRef_form hfree hloaded hloaded' hresolves hresolves' h h' hsame with
      | flat hflat => cases hflat
      | array _ element' =>
        obtain ⟨inner, hinner, rfl⟩ := hashTypeRef_array.mp h
        obtain ⟨inner', hinner', rfl⟩ := hashTypeRef_array.mp h'
        have helement : Resolves packages' ast'.packageName element' := hresolves'
        obtain ⟨rfl, rfl, hmatched, hexplored⟩ := ih hresolves helement hinner hinner'
          (hsame.imp (fun heq => (List.cons.inj (hfree.chain_inj heq).2).1) sameLayout_array.mp)
        exact ⟨rfl, rfl, .array hmatched, hexplored⟩
    | custom given name =>
      intro visited after after' hash hash' h h' hsame
      cases hashTypeRef_form hfree hloaded hloaded' hresolves hresolves' h h' hsame with
      | flat hflat => cases hflat
      | custom =>
        exact lockstep_custom hfree hclosed hclosed' (fun hless => ihfuel _ hless) hloaded hloaded'
          hresolves hresolves' h h' hsame
    | _ =>
      intro visited after after' hash hash' h h' hsame
      cases hashTypeRef_form hfree hloaded hloaded' hresolves hresolves' h h' hsame with
      | flat hflat =>
        rw [hashTypeRef_flat hflat] at h h'
        cases h
        cases h'
        exact ⟨rfl, rfl, .flat hflat, .refl _⟩

/-- Types that match, with all expanded structs matched, expand alike. -/
theorem Matched.sameLayout
    (hstructs : ∀ fqn ∈ visited, StructMatched packages packages' visited fqn)
    (h : Matched visited package package' type type') :
    SameLayout packages packages' package type package' type' := by
  intro depth
  -- on the depth for the fields of structs, inside it on the types for the elements of arrays
  induction depth using Nat.strongRecOn generalizing package package' type type' with
  | ind depth ihdepth =>
    induction h with
    | @flat type hflat => cases depth <;> cases type <;> first | rfl | cases hflat
    | array _ ih => rw [expand_array, expand_array, ih]
    | @custom given name given' name' hname hvisited =>
      cases depth with
      | zero => rfl
      | succ depth =>
        obtain ⟨types, types', htypes, htypes', hfields⟩ := hstructs _ hvisited _ _ rfl
        obtain ⟨hpackage, rfl⟩ := qualify_inj hname
        have hmap : types.map (expand packages depth (resolvePackage package given)) =
            types'.map (expand packages' depth (resolvePackage package given)) := by
          rw [← forall₂_eq_eq_eq, forall₂_map_left_iff, forall₂_map_right_iff]
          exact hfields.imp fun _ _ hfield => ihdepth depth (Nat.lt_succ_self depth) hfield
        simp only [expand, expandShape, ← hpackage, htypes, htypes', hmap]

end

/-! ### Methods and topics -/

/-- Packages that the validator has accepted. -/
structure AcceptedPackages where
  packages : Packages
  accepted : ∃ root loaded ast, validateSemantics root loaded = .ok (ast, packages)

/-- A method of a service of one of the packages. -/
structure MethodOf (context : AcceptedPackages) where
  ast : AstFile
  service : ServiceDef
  method : MethodDef
  loaded : IsLoaded context.packages ast
  service_mem : service ∈ ast.services
  method_mem : method ∈ service.methods

/-- A topic of one of the packages. -/
structure TopicOf (context : AcceptedPackages) where
  ast : AstFile
  topic : TopicDef
  loaded : IsLoaded context.packages ast
  topic_mem : topic ∈ ast.topics

theorem AcceptedPackages.closed (context : AcceptedPackages) : Closed context.packages := by
  obtain ⟨root, loaded, ast, haccepted⟩ := context.accepted
  exact fun name file hfile => validateSemantics_resolves haccepted hfile

/-- The list of types that a method hash mixes in. -/
def MethodDef.types (method : MethodDef) : List TypeRef :=
  match method.param with
  | none => [method.returnType]
  | some param => [param.type, method.returnType]

variable {context : AcceptedPackages}

theorem MethodOf.resolves (m : MethodOf context) :
    ∀ type ∈ m.method.types, Resolves context.packages m.ast.packageName type := by
  have hfile := context.closed _ m.ast m.loaded
  have hreturn := hfile.returns m.service m.service_mem m.method m.method_mem
  intro type htype
  unfold MethodDef.types at htype
  split at htype
  · rw [mem_singleton] at htype
    exact htype ▸ hreturn
  next param hparam =>
    rcases mem_cons.mp htype with rfl | htype
    · exact hfile.params m.service m.service_mem m.method m.method_mem param (by rw [hparam]; rfl)
    · rw [mem_singleton] at htype
      exact htype ▸ hreturn

theorem TopicOf.resolves (t : TopicOf context) :
    ∀ type ∈ t.topic.fields.map FieldDef.type, Resolves context.packages t.ast.packageName type := by
  intro type htype
  obtain ⟨field, hfield, rfl⟩ := List.mem_map.mp htype
  exact (context.closed _ t.ast t.loaded).topics t.topic t.topic_mem field hfield

/-- Every defined struct is among the names that bound the fuel. -/
theorem mem_structNames {packages : Packages} (ast : AstFile) {name : Ident}
    (h : Defines packages package name) : qualify package name ∈ structNames ast packages := by
  obtain ⟨file, hfind, definition, hdefinition, rfl⟩ := h
  obtain rfl : file.packageName = package := Subtype.ext (packages.find_packageName hfind)
  refine mem_flatMap.mpr ⟨file, mem_cons_of_mem _ ?_, ?_⟩
  · exact List.mem_map.mpr ⟨(file.packageName.val, file), Table.mem_toList.mpr hfind, rfl⟩
  · exact List.mem_map.mpr ⟨definition, hdefinition, rfl⟩

section
variable {H : Type} {hasher : Hasher H}

/-- The hash of a text with types mixed in, as methods and topics have it. -/
theorem hashFields_total (hasher : Hasher H) (hloaded : IsLoaded context.packages ast)
    {types : List TypeRef}
    (hresolves : ∀ type ∈ types, Resolves context.packages ast.packageName type) (text : Bytes) :
    ∃ hashes after,
      hashEach (hashTypeRef hasher context.packages (hashFuel ast context.packages) ast) types [] =
        some (hashes, after) ∧
      (hashFields hasher (hashTypeRef hasher context.packages (hashFuel ast context.packages) ast)
        (hasher.hash text) types []).map Prod.fst = some (hasher.chain (hasher.hash text) hashes) := by
  have hbound : unvisited (structNames ast context.packages) [] < hashFuel ast context.packages :=
    Nat.lt_succ_of_le (length_filter_le _ _)
  obtain ⟨hashes, after, hhashes, _⟩ := hashEach_total
    (fun type htype visited hvisited => hashTypeRef_total hasher context.closed
      (fun _ _ => mem_structNames ast) visited hloaded (hresolves type htype) hvisited) hbound
  refine ⟨hashes, after, hhashes, ?_⟩
  rw [hashFields_eq_chain.mpr ⟨hashes, hhashes, rfl⟩]
  rfl

/-- The hashes that methods and topics have exist, and they are equal when texts and layouts are. -/
theorem mixed_eq_iff (hfree : hasher.Free) {context' : AcceptedPackages}
    (hloaded : IsLoaded context.packages ast) (hloaded' : IsLoaded context'.packages ast')
    {types types' : List TypeRef}
    (hresolves : ∀ type ∈ types, Resolves context.packages ast.packageName type)
    (hresolves' : ∀ type ∈ types', Resolves context'.packages ast'.packageName type)
    (text text' : Bytes) : ∃ hash hash',
      (hashFields hasher (hashTypeRef hasher context.packages (hashFuel ast context.packages) ast)
        (hasher.hash text) types []).map Prod.fst = some hash ∧
      (hashFields hasher (hashTypeRef hasher context'.packages (hashFuel ast' context'.packages) ast')
        (hasher.hash text') types' []).map Prod.fst = some hash' ∧
      (hash = hash' ↔ text = text' ∧ List.Forall₂ (fun type type' => SameLayout context.packages
        context'.packages ast.packageName type ast'.packageName type') types types') ∧
      ∀ type ∈ types, ∀ target name, Reaches context.packages target name ast.packageName type →
        ¬ SameFields context.packages context'.packages target name → hash ≠ hash' := by
  obtain ⟨hashes, after, hhashes, htotal⟩ := hashFields_total hasher hloaded hresolves text
  obtain ⟨hashes', after', hhashes', htotal'⟩ := hashFields_total hasher hloaded' hresolves' text'
  have hlockstep := hashEach_lockstep
    (fun type htype type' htype' => hashTypeRef_lockstep hfree context.closed context'.closed hloaded
      hloaded' (hresolves type htype) (hresolves' type' htype')) hhashes hhashes'
  have hiff : hasher.chain (hasher.hash text) hashes = hasher.chain (hasher.hash text') hashes' ↔
      text = text' ∧ List.Forall₂ (fun type type' => SameLayout context.packages context'.packages
        ast.packageName type ast'.packageName type') types types' := by
    constructor
    · intro heq
      obtain ⟨htext, hsame⟩ := hfree.chain_inj heq
      obtain ⟨-, rfl, hmatched, hexplored⟩ := hlockstep (.inl hsame)
      -- nothing was expanded at the start, so everything that has been expanded matches
      have hstructs := fun fqn hfqn => hexplored.matched fqn hfqn (by simp)
      exact ⟨htext, hmatched.imp fun _ _ hpair => hpair.sameLayout hstructs⟩
    · rintro ⟨rfl, hsame⟩
      rw [(hlockstep (.inr hsame)).1]
  refine ⟨_, _, htotal, htotal', hiff, fun type htype target name hreaches hdiffers heq => ?_⟩
  obtain ⟨type', htype', hpair⟩ := forall₂_exists_of_mem (hiff.mp heq).2 htype
  exact hdiffers (SameLayout.sameFields context.closed context'.closed hreaches
    (hresolves type htype) (hresolves' type' htype') hpair)

end

/-- The same name, both with or both without a parameter, and the same layouts. -/
def SameSignature {context context' : AcceptedPackages} (m : MethodOf context)
    (m' : MethodOf context') : Prop :=
  m.method.name = m'.method.name ∧
    Option.Rel (fun param param' => SameLayout context.packages context'.packages m.ast.packageName
      param.type m'.ast.packageName param'.type) m.method.param m'.method.param ∧
    SameLayout context.packages context'.packages m.ast.packageName m.method.returnType
      m'.ast.packageName m'.method.returnType

/-- The same name and fields of the same layouts in the same order. -/
def SameTopic {context context' : AcceptedPackages} (t : TopicOf context) (t' : TopicOf context') :
    Prop :=
  t.topic.name = t'.topic.name ∧
    List.Forall₂ (fun type type' => SameLayout context.packages context'.packages t.ast.packageName type
      t'.ast.packageName type') (t.topic.fields.map FieldDef.type) (t'.topic.fields.map FieldDef.type)

theorem sameSignature_iff {context' : AcceptedPackages} (m : MethodOf context)
    (m' : MethodOf context') :
    SameSignature m m' ↔ m.method.name.val = m'.method.name.val ∧
      List.Forall₂ (fun type type' => SameLayout context.packages context'.packages
        m.ast.packageName type m'.ast.packageName type') m.method.types m'.method.types := by
  rw [SameSignature, Subtype.ext_iff, MethodDef.types, MethodDef.types]
  refine and_congr_right fun _ => ?_
  cases hparam : m.method.param with
  | none =>
    cases hparam' : m'.method.param with
    | none => simp
    | some param' => simp
  | some param =>
    cases hparam' : m'.method.param with
    | none => simp
    | some param' => simp

/-- Without collisions, method and topic hashes of accepted packages are equal exactly when the names and
    the expanded layouts are. In particular they differ as soon as a struct that is reached at any depth
    differs in the types, the number or the order of its fields. -/
theorem idl_hashes_eq_iff {H : Type} {hasher : Hasher H} (hfree : hasher.Free)
    (context context' : AcceptedPackages) :
    (∀ (m : MethodOf context) (m' : MethodOf context'), ∃ hash hash',
        computeMethodHash hasher m.method m.ast context.packages = some hash ∧
        computeMethodHash hasher m'.method m'.ast context'.packages = some hash' ∧
        (hash = hash' ↔ SameSignature m m') ∧ ∀ type ∈ m.method.types, ∀ target name,
          Reaches context.packages target name m.ast.packageName type →
          ¬ SameFields context.packages context'.packages target name → hash ≠ hash') ∧
      ∀ (t : TopicOf context) (t' : TopicOf context'), ∃ hash hash',
        computeTopicHash hasher t.topic t.ast context.packages = some hash ∧
        computeTopicHash hasher t'.topic t'.ast context'.packages = some hash' ∧
        (hash = hash' ↔ SameTopic t t') ∧ ∀ type ∈ t.topic.fields.map FieldDef.type, ∀ target name,
          Reaches context.packages target name t.ast.packageName type →
          ¬ SameFields context.packages context'.packages target name → hash ≠ hash' := by
  constructor
  · intro m m'
    obtain ⟨hash, hash', hhash, hhash', hiff, hdiffer⟩ := mixed_eq_iff hfree m.loaded m'.loaded
      m.resolves m'.resolves m.method.name.val m'.method.name.val
    exact ⟨hash, hash', hhash, hhash', hiff.trans (sameSignature_iff m m').symm, hdiffer⟩
  · intro t t'
    obtain ⟨hash, hash', hhash, hhash', hiff, hdiffer⟩ := mixed_eq_iff hfree t.loaded t'.loaded
      t.resolves t'.resolves t.topic.name.val t'.topic.name.val
    rw [← Subtype.ext_iff] at hiff
    exact ⟨hash, hash', hhash, hhash', hiff, hdiffer⟩

/-! ### A type that is recursive through arrays -/

namespace TreeFile

def treePackage : Ident := ⟨ascii "tree", by decide⟩

def node : Ident := ⟨ascii "Node", by decide⟩

/-- A node with an array of nodes and a label of the given type. -/
def nodeFields (label : PrimitiveType) : List FieldDef :=
  [⟨.array (.custom .empty node), ⟨ascii "children", by decide⟩⟩,
    ⟨.prim label, ⟨ascii "label", by decide⟩⟩]

def rootMethod : MethodDef where
  name := ⟨ascii "root", by decide⟩
  returnType := .custom treePackage node
  param := none

def treeService : ServiceDef := ⟨⟨ascii "Tree", by decide⟩, [rootMethod], []⟩

def file (label : PrimitiveType) : AstFile where
  packageName := treePackage
  filePath := ascii "tree.bidl"
  importedPackages := []
  structs := [⟨node, nodeFields label⟩]
  topics := []
  services := [treeService]
  importsBeforeDeclarations := true
  packageBeforeImportsAndDeclarations := true
  packageDeclarationCount := 1

/-- The validator accepts the file and keeps it as it is. -/
theorem accepted {label : PrimitiveType} (h : label = .uint8 ∨ label = .uint16) :
    ∃ context : AcceptedPackages, IsLoaded context.packages (file label) := by
  obtain ⟨ast, packages, hvalid, hloaded⟩ : ∃ ast packages,
      validateSemantics (file label) Packages.empty = .ok (ast, packages) ∧
        packages.find treePackage.val = some (file label) := by
    rcases h with rfl | rfl
    · exact exists_accepted (by decide +kernel)
    · exact exists_accepted (by decide +kernel)
  exact ⟨⟨packages, file label, Packages.empty, ast, hvalid⟩, hloaded⟩

/-- Changing the label of a node from one byte to two changes the hash of the method that returns a
    node. -/
theorem label_change_changes_hash :
    ∃ (context context' : AcceptedPackages) (m : MethodOf context) (m' : MethodOf context')
      (hash hash' : HashTerm), m.method = rootMethod ∧ m'.method = rootMethod ∧
      computeMethodHash HashTerm.hasher m.method m.ast context.packages = some hash ∧
      computeMethodHash HashTerm.hasher m'.method m'.ast context'.packages = some hash' ∧
      hash ≠ hash' := by
  obtain ⟨context, hloaded⟩ := accepted (.inl rfl)
  obtain ⟨context', hloaded'⟩ := accepted (.inr rfl)
  let m : MethodOf context := ⟨file .uint8, treeService, rootMethod, hloaded,
    mem_singleton_self _, mem_singleton_self _⟩
  let m' : MethodOf context' := ⟨file .uint16, treeService, rootMethod, hloaded',
    mem_singleton_self _, mem_singleton_self _⟩
  have hdiffers : ¬ SameFields context.packages context'.packages treePackage node := by
    have hfields : structFields context.packages treePackage node =
        some ((nodeFields .uint8).map FieldDef.type) := by
      rw [structFields, show context.packages.find treePackage.val = some (file .uint8) from hloaded]
      rfl
    have hfields' : structFields context'.packages treePackage node =
        some ((nodeFields .uint16).map FieldDef.type) := by
      rw [structFields, show context'.packages.find treePackage.val = some (file .uint16) from hloaded']
      rfl
    rintro ⟨types, types', htypes, htypes', hsame⟩
    rw [hfields] at htypes
    rw [hfields'] at htypes'
    cases htypes
    cases htypes'
    -- the labels already differ before any struct is expanded
    simp only [nodeFields, map_cons, map_nil, forall₂_cons] at hsame
    exact absurd (hsame.2.1 0) (by simp [expand, expandShape])
  obtain ⟨hash, hash', hhash, hhash', _, hchanged⟩ :=
    (idl_hashes_eq_iff HashTerm.free context context').1 m m'
  exact ⟨context, context', m, m', hash, hash', rfl, rfl, hhash, hhash',
    hchanged _ (mem_singleton_self _) treePackage node (Reaches.here rfl) hdiffers⟩

end TreeFile

end OmniBinder.Idl
