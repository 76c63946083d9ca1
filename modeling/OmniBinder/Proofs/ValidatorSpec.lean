/-
Module: OmniBinder.Proofs.ValidatorSpec
Purpose: Rules for the checks of the validator, and what an accepted set of packages guarantees to the
  code generators: every struct that a field, a topic, a parameter or a return type names is defined in
  the package it is looked up in, and that package can be reached through imports.
Trusted boundary: none
Main exports: Check.Ensures, validateSemantics_nodup
-/
import Mathlib.Logic.Relation
import OmniBinder.Idl.SemanticValidator

namespace OmniBinder.Idl

open OmniBinder List

variable {service : ServiceDef}

variable {text : Bytes}

/-! ### The outcomes of a check -/

/-- The check can pass with this value. -/
def Check.Yields {α : Type} (check : Check α) (value : α) : Prop :=
  ∃ start finish, check start = .ok (value, finish)

namespace Check.Yields

variable {α β : Type}

theorem of_bind {check : Check α} {next : α → Check β} {value : β}
    (h : Yields (check >>= next) value) : ∃ first, Yields check first ∧ Yields (next first) value := by
  obtain ⟨start, finish, h⟩ := h
  change StateT.bind check next start = .ok (value, finish) at h
  unfold StateT.bind at h
  cases hfirst : check start with
  | error text =>
    rw [hfirst] at h
    cases h
  | ok result =>
    rw [hfirst] at h
    exact ⟨result.1, ⟨start, result.2, hfirst⟩, ⟨result.2, finish, h⟩⟩

theorem of_pure {first value : α} (h : Yields (pure first) value) : value = first := by
  obtain ⟨start, finish, h⟩ := h
  cases h
  rfl

theorem not_throw {value : α} (h : Yields (throw text) value) : False := by
  obtain ⟨start, finish, h⟩ := h
  cases h

end Check.Yields

/-- The check can end with this error. -/
def Check.Fails {α : Type} (check : Check α) (text : Bytes) : Prop :=
  ∃ start, check start = .error text

namespace Check.Fails

variable {α β : Type} {text : Bytes}

/-- The first part fails, or it passes and the rest fails. -/
theorem of_bind {check : Check α} {next : α → Check β} (h : Fails (check >>= next) text) :
    Fails check text ∨ ∃ first, Yields check first ∧ Fails (next first) text := by
  obtain ⟨start, h⟩ := h
  change StateT.bind check next start = .error text at h
  unfold StateT.bind at h
  cases hfirst : check start with
  | error text' =>
    rw [hfirst] at h
    cases h
    exact .inl ⟨start, hfirst⟩
  | ok result =>
    rw [hfirst] at h
    exact .inr ⟨result.1, ⟨start, result.2, hfirst⟩, ⟨result.2, h⟩⟩

theorem not_pure {value : α} (h : Fails (pure value) text) : False := by
  obtain ⟨start, h⟩ := h
  cases h

theorem of_throw {text' : Bytes} (h : Fails (throw text' : Check α) text) : text = text' := by
  obtain ⟨start, h⟩ := h
  cases h
  rfl

end Check.Fails

/-! ### Checks that report no cycle -/

def cycleReport (label : Bytes) : Bytes :=
  ascii "by-value struct cycle involving '" ++ label ++ ascii "'"

/-- The text opens with another character than a report does. -/
def OpensPlainly (text : Bytes) : Prop := ∃ c ∈ text.head?, c ≠ 0x62

theorem OpensPlainly.append (h : OpensPlainly text) (rest : Bytes) :
    OpensPlainly (text ++ rest) := by
  obtain ⟨c, hc, hne⟩ := h
  exact ⟨c, by simp [head?_append, Option.mem_def.mp hc], hne⟩

theorem OpensPlainly.ne_cycleReport (h : OpensPlainly text) (label : Bytes) :
    text ≠ cycleReport label := by
  rintro rfl
  obtain ⟨c, hc, hne⟩ := h
  have hhead : (cycleReport label).head? = some 0x62 := rfl
  exact hne (Option.some.inj hc).symm

theorem ne_cycleReport_of_getLast? {text ending : Bytes} {c : UInt8} (hlast : ending.getLast? = some c)
    (hne : c ≠ 0x27) (label : Bytes) : text ++ ending ≠ cycleReport label := by
  intro h
  have hends := congrArg List.getLast? h
  rw [getLast?_append, hlast, cycleReport, getLast?_append] at hends
  exact hne (Option.some.inj hends)

/-- Where the check passes its value has the first property, and the labels of the cycles that it reports
    have the second. -/
structure Check.Ensures {α : Type} (check : Check α) (post : α → Prop) (reported : Bytes → Prop) :
    Prop where
  passes : ∀ {value}, Yields check value → post value
  reports : ∀ {label}, Fails check (cycleReport label) → reported label

variable {α β : Type} {reported : Bytes → Prop}

namespace Check.Ensures

variable {check : Check α} {next : α → Check β} {text : Bytes} {post : α → Prop} {post' : β → Prop}

theorem mono {weaker : α → Prop} (h : Ensures check post reported)
    (himp : ∀ {value}, post value → weaker value) : Ensures check weaker reported :=
  ⟨fun hyields => himp (h.passes hyields), h.reports⟩

protected theorem pure {value : α} (h : post value) : Ensures (pure value) post reported :=
  ⟨fun hyields => hyields.of_pure ▸ h, fun hfails => hfails.not_pure.elim⟩

protected theorem throw (h : ∀ label, text ≠ cycleReport label) : Ensures (throw text) post reported :=
  ⟨fun hyields => hyields.not_throw.elim, fun hfails => absurd hfails.of_throw.symm (h _)⟩

protected theorem bind (h : Ensures check post reported)
    (hnext : ∀ {value}, post value → Ensures (next value) post' reported) :
    Ensures (check >>= next) post' reported := by
  constructor
  · intro value hyields
    obtain ⟨first, hfirst, hyields⟩ := hyields.of_bind
    exact (hnext (h.passes hfirst)).passes hyields
  · intro label hfails
    rcases hfails.of_bind with hfails | ⟨value, hvalue, hfails⟩
    · exact h.reports hfails
    · exact (hnext (h.passes hvalue)).reports hfails

protected theorem ite {condition : Prop} [Decidable condition] {check' : Check α}
    (h : condition → Ensures check post reported) (h' : ¬ condition → Ensures check' post reported) :
    Ensures (if condition then check else check') post reported := by
  split
  · next hcondition => exact h hcondition
  · next hcondition => exact h' hcondition

/-- A check made before the rest, with a text that is no report. -/
theorem throw_if {condition : Prop} [Decidable condition] {after : α → Check β} {rest : Check β}
    (htext : ∀ label, text ≠ cycleReport label) (hrest : ¬ condition → Ensures rest post' reported) :
    Ensures (if condition then throw text >>= after else rest) post' reported := by
  have hthrow : Ensures (throw text : Check α) (fun _ => False) reported := .throw htext
  exact .ite (fun _ => hthrow.bind False.elim) hrest

protected theorem forM (post : α → Prop) {items : List α} {check : α → Check PUnit}
    (h : ∀ item, Ensures (check item) (fun _ => post item) reported) :
    Ensures (items.forM check) (fun _ => ∀ item ∈ items, post item) reported := by
  induction items with
  | nil => exact .pure (by simp)
  | cons item items ih =>
    exact (h item).bind fun hitem => ih.mono fun hitems => forall_mem_cons.mpr ⟨hitem, hitems⟩

/-- What every step of a fold keeps holds at its end, and so does what every step gives of its item. -/
protected theorem foldlM (invariant : β → Prop) (post : α → Prop) {items : List α}
    {step : β → α → Check β} (h : ∀ item ∈ items, ∀ {value}, invariant value →
      Ensures (step value item) (fun value' => invariant value' ∧ post item) reported) :
    ∀ {first : β}, invariant first → Ensures (items.foldlM step first)
      (fun value => invariant value ∧ ∀ item ∈ items, post item) reported := by
  induction items with
  | nil => exact fun hfirst => .pure ⟨hfirst, by simp⟩
  | cons item items ih =>
    intro first hfirst
    rw [foldlM_cons]
    refine (h item mem_cons_self hfirst).bind fun ⟨hvalue, hitem⟩ => ?_
    have hrest := ih (fun other hother => h other (mem_cons_of_mem _ hother)) hvalue
    exact hrest.mono fun ⟨hlast, hitems⟩ => ⟨hlast, forall_mem_cons.mpr ⟨hitem, hitems⟩⟩

end Check.Ensures

/-- A traversal that has become too long is no report. -/
theorem ensures_traversalLimit {post : α → Prop} :
    Check.Ensures (throw traversalLimitExceeded) post reported :=
  .throw (OpensPlainly.ne_cycleReport ⟨_, rfl, by decide⟩)

theorem ensures_tick : Check.Ensures tick (fun _ => True) reported := by
  have hget : Check.Ensures get (fun _ => True) reported := by
    refine ⟨fun _ => trivial, ?_⟩
    rintro label ⟨start, h⟩
    cases h
  refine hget.bind fun _ => .ite (fun _ => ensures_traversalLimit) fun _ => ⟨fun _ => trivial, ?_⟩
  rintro label ⟨start, h⟩
  cases h

open Std.TreeMap

variable {package : Ident}

/-! ### Names -/

/-- The dot is no identifier character, so the two parts of a qualified name can be told apart. -/
theorem qualify_inj {package' name name' : Ident}
    (h : qualify package name = qualify package' name') : package = package' ∧ name = name' := by
  have hdot (ident : Ident) : (0x2E : UInt8) ∉ ident.val := by
    intro hmem
    exact absurd (List.all_eq_true.mp ident.property _ hmem) (by decide)
  obtain ⟨hpackage, _, hname⟩ :=
    (append_cons_inj_of_notMem (hdot package) (hdot name)).mp h
  exact ⟨Subtype.ext hpackage, Subtype.ext hname⟩

variable {name : Bytes} {ast : AstFile}

theorem Packages.find_packageName {packages : Packages} (h : packages.find name = some ast) :
    ast.packageName.val = name := packages.keyed name ast h

@[simp]
theorem Packages.find_insert (packages : Packages) (ast : AstFile) (name : Bytes) :
    (packages.insert ast).find name =
      if ast.packageName.val = name then some ast else packages.find name :=
  Table.getElem?_insert packages.table ast.packageName.val name ast

theorem Packages.mem_names {packages : Packages} (h : packages.find name = some ast) :
    name ∈ packages.names :=
  List.mem_map.mpr ⟨(name, ast), Table.mem_toList.mpr h, rfl⟩

/-! ### Resolved references -/

/-- A struct of this name is defined in the package. -/
def Defines (packages : Packages) (package name : Ident) : Prop :=
  ∃ ast, packages.find package.val = some ast ∧ ∃ definition ∈ ast.structs, definition.name = name

/-- Every struct that the type names is defined. -/
def Resolves (packages : Packages) (package : Ident) : TypeRef → Prop
  | .custom given name => Defines packages (resolvePackage package given) name
  | .array element => Resolves packages package element
  | _ => True

/-- Every type in the file resolves. -/
structure FileResolves (packages : Packages) (ast : AstFile) : Prop where
  structs : ∀ definition ∈ ast.structs, ∀ field ∈ definition.fields,
    Resolves packages ast.packageName field.type
  topics : ∀ topic ∈ ast.topics, ∀ field ∈ topic.fields,
    Resolves packages ast.packageName field.type
  returns : ∀ service ∈ ast.services, ∀ method ∈ service.methods,
    Resolves packages ast.packageName method.returnType
  params : ∀ service ∈ ast.services, ∀ method ∈ service.methods, ∀ param ∈ method.param,
    Resolves packages ast.packageName param.type

/-- One package imports the other. -/
def Imports (packages : Packages) (importing imported : Bytes) : Prop :=
  ∃ ast, packages.find importing = some ast ∧ ∃ package ∈ ast.importedPackages, package.val = imported

/-- The second package is the first one or can be reached through its imports. -/
def Visible (packages : Packages) (package other : Ident) : Prop :=
  Relation.ReflTransGen (Imports packages) package.val other.val

/-- The struct is defined in a package that the first one can see. -/
def Sees (packages : Packages) (own package name : Ident) : Prop :=
  Visible packages own package ∧ Defines packages package name

/-- Every package of the set can be reached through imports. -/
def AllVisible (packages : Packages) (root : Ident) (visible : Table Bytes Unit) : Prop :=
  ∀ other ∈ visible, Relation.ReflTransGen (Imports packages) root.val other

/-- The property holds of every struct that the type names, given by its package and its name. -/
def RefersTo (P : Ident → Ident → Prop) (package : Ident) : TypeRef → Prop
  | .custom given name => P (resolvePackage package given) name
  | .array element => RefersTo P package element
  | _ => True

/-- The property holds of every struct that is named in the file. -/
structure FileRefersTo (P : Ident → Ident → Prop) (ast : AstFile) : Prop where
  structs : ∀ definition ∈ ast.structs, ∀ field ∈ definition.fields,
    RefersTo P ast.packageName field.type
  topics : ∀ topic ∈ ast.topics, ∀ field ∈ topic.fields, RefersTo P ast.packageName field.type
  returns : ∀ service ∈ ast.services, ∀ method ∈ service.methods,
    RefersTo P ast.packageName method.returnType
  params : ∀ service ∈ ast.services, ∀ method ∈ service.methods, ∀ param ∈ method.param,
    RefersTo P ast.packageName param.type

/-- The property holds of every name declared as a struct. -/
def Declares (P : Ident → Ident → Prop) (declarations : DeclarationMap) : Prop :=
  ∀ qualified : Bytes, declarations[qualified]? = some .struct →
    ∃ package name, qualified = qualify package name ∧ P package name

variable {type : TypeRef} {kind : String} {owner : Ident} {fields : List FieldDef}
  {ast' root : AstFile} {packages' loaded : Packages}

section
variable {packages : Packages} {declarations : DeclarationMap} {P Q : Ident → Ident → Prop}

theorem RefersTo.mono (hPQ : ∀ {package name}, P package name → Q package name)
    (h : RefersTo P package type) : RefersTo Q package type := by
  induction type with
  | custom given name => exact hPQ h
  | array element ih => exact ih h
  | prim primitive => trivial
  | void => trivial
  | bareArray => trivial

theorem RefersTo.resolves (h : RefersTo (Defines packages) package type) :
    Resolves packages package type := by
  induction type with
  | custom given name => exact h
  | array element ih => exact ih h
  | prim primitive => trivial
  | void => trivial
  | bareArray => trivial

theorem FileRefersTo.mono (hPQ : ∀ {package name}, P package name → Q package name)
    (h : FileRefersTo P ast) : FileRefersTo Q ast where
  structs definition hdefinition field hfield :=
    (h.structs definition hdefinition field hfield).mono hPQ
  topics topic htopic field hfield := (h.topics topic htopic field hfield).mono hPQ
  returns service hservice method hmethod := (h.returns service hservice method hmethod).mono hPQ
  params service hservice method hmethod param hparam :=
    (h.params service hservice method hmethod param hparam).mono hPQ

theorem FileRefersTo.resolves (h : FileRefersTo (Defines packages) ast) :
    FileResolves packages ast where
  structs definition hdefinition field hfield :=
    (h.structs definition hdefinition field hfield).resolves
  topics topic htopic field hfield := (h.topics topic htopic field hfield).resolves
  returns service hservice method hmethod := (h.returns service hservice method hmethod).resolves
  params service hservice method hmethod param hparam :=
    (h.params service hservice method hmethod param hparam).resolves

/-- Declared names are new and different, and are added under their own kind. -/
theorem ensures_addDeclarations {kind : DeclarationKind} {names : List Ident} :
    ∀ {declarations : DeclarationMap}, Declares P declarations →
      (kind = .struct → ∀ name ∈ names, P ast.packageName name) →
      Check.Ensures (names.foldlM (addDeclaration ast kind) declarations) (fun declarations' =>
        Declares P declarations' ∧ names.Nodup ∧
          ∀ name ∈ names, declarations.contains (qualify ast.packageName name) = false) reported := by
  induction names with
  | nil => exact fun hdeclares _ => .pure ⟨hdeclares, by simp⟩
  | cons name names ih =>
    intro declarations hdeclares hdefined
    rw [foldlM_cons]
    have hfirst : Check.Ensures (addDeclaration ast kind declarations name) (fun declarations' =>
        declarations' = declarations.insert (qualify ast.packageName name) kind ∧
          declarations.contains (qualify ast.packageName name) = false) reported := by
      refine .throw_if ?_ fun _ => .throw_if ?_ fun hnew => .pure ⟨rfl, Bool.eq_false_iff.mpr hnew⟩
      · exact OpensPlainly.ne_cycleReport (.append (.append ⟨_, rfl, by decide⟩ _) _)
      · exact OpensPlainly.ne_cycleReport (.append (.append ⟨_, rfl, by decide⟩ _) _)
    refine hfirst.bind fun ⟨hinsert, hnew⟩ => ?_
    subst hinsert
    refine (ih ?_ fun hkind other hother => hdefined hkind other (mem_cons_of_mem _ hother)).mono
      fun ⟨hlast, hnodup, hothers⟩ => ?_
    · intro qualified hlookup
      rcases Table.of_insert hlookup with ⟨rfl, hkind⟩ | ⟨-, hlookup⟩
      · exact ⟨ast.packageName, name, rfl, hdefined hkind.symm name mem_cons_self⟩
      · exact hdeclares qualified hlookup
    · have hsplit (other : Ident) (hother : other ∈ names) :
          name ≠ other ∧ declarations.contains (qualify ast.packageName other) = false := by
        have hother' := hothers other hother
        rw [Std.TreeMap.contains_insert, Bool.or_eq_false_iff] at hother'
        refine ⟨?_, hother'.2⟩
        rintro rfl
        simp at hother'
      exact ⟨hlast, nodup_cons.mpr ⟨fun hmem => (hsplit name hmem).1 rfl, hnodup⟩,
        forall_mem_cons.mpr ⟨hnew, fun other hother => (hsplit other hother).2⟩⟩

/-- No two structs of the file have one name, and no two topics. -/
def NamesDiffer (ast : AstFile) : Prop :=
  (ast.structs.map StructDef.name).Nodup ∧ (ast.topics.map TopicDef.name).Nodup

theorem ensures_collectDeclarations
    (hstruct : ∀ definition ∈ ast.structs, P ast.packageName definition.name)
    (hdeclares : Declares P declarations) :
    Check.Ensures (collectDeclarations ast declarations) (fun declarations' =>
      Declares P declarations' ∧ NamesDiffer ast) reported := by
  refine (ensures_addDeclarations hdeclares fun _ name hname => ?_).bind fun ⟨hstructs, hnodup, _⟩ => ?_
  · obtain ⟨definition, hdefinition, rfl⟩ := List.mem_map.mp hname
    exact hstruct definition hdefinition
  · refine (ensures_addDeclarations hstructs (by simp)).bind fun ⟨htopics, hdiffer, _⟩ => ?_
    exact (ensures_addDeclarations htopics (by simp)).mono fun ⟨hservices, _⟩ =>
      ⟨hservices, hnodup, hdiffer⟩

/-- The package itself is collected and nothing is lost; what is collected can be reached through
    imports. -/
theorem ensures_collectVisiblePackages {root : Ident} :
    ∀ {depth : Nat} {visible : Table Bytes Unit} {name : Ident},
      Visible packages root name → AllVisible packages root visible →
      Check.Ensures (collectVisiblePackages packages depth visible name) (fun visible' =>
        AllVisible packages root visible' ∧ ∀ other, other = name.val ∨ other ∈ visible →
          other ∈ visible') reported := by
  intro depth
  induction depth with
  | zero => exact fun _ _ => ensures_traversalLimit
  | succ depth ih =>
    intro visible name hname hvisible
    rw [collectVisiblePackages]
    refine ensures_tick.bind fun _ => .ite (fun hknown => .pure ⟨hvisible, ?_⟩) fun _ => ?_
    · rintro other (rfl | hother)
      · exact mem_iff_contains.mpr hknown
      · exact hother
    · have hadded : AllVisible packages root (visible.insert name.val ()) ∧
          ∀ other, other = name.val ∨ other ∈ visible → other ∈ visible.insert name.val () := by
        constructor
        · intro other hother
          rcases mem_insert.mp hother with hsame | hother
          · rw [← Std.LawfulEqCmp.compare_eq_iff_eq.mp hsame]
            exact hname
          · exact hvisible other hother
        · rintro other (rfl | hother)
          · exact Std.TreeMap.mem_insert_self
          · exact mem_insert.mpr (.inr hother)
      split
      · exact .pure hadded
      next ast hfind =>
        refine (Check.Ensures.foldlM (fun value => AllVisible packages root value ∧
          ∀ other, other = name.val ∨ other ∈ visible → other ∈ value) (fun _ => True)
          (fun imported himported {value} hinv => ?_) hadded).mono And.left
        have hreached := Relation.ReflTransGen.tail hname ⟨ast, hfind, imported, himported, rfl⟩
        refine .throw_if ?_ fun _ => (ih hreached hinv.1).mono fun ⟨hall, hkept⟩ => ⟨⟨hall, ?_⟩, trivial⟩
        · exact OpensPlainly.ne_cycleReport
            (.append (.append (.append (.append ⟨_, rfl, by decide⟩ _) _) _) _)
        · exact fun other hother => hkept other (.inr (hinv.2 other hother))

/-- What is declared to a file is defined in a package that the file can see, and the names in its own
    package differ. -/
theorem ensures_buildVisibleDeclarations :
    Check.Ensures (buildVisibleDeclarations ast packages) (fun declarations =>
      Declares (Sees packages ast.packageName) declarations ∧
        ∀ file, packages.find ast.packageName.val = some file → NamesDiffer file) reported := by
  refine (ensures_collectVisiblePackages .refl (by simp [AllVisible])).bind
    fun {visible} ⟨hreached, hkept⟩ => ?_
  have hown : ast.packageName.val ∈ visible.toList.map Prod.fst := by
    rw [map_fst_toList_eq_keys, Std.TreeMap.mem_keys]
    exact hkept _ (.inl rfl)
  refine (Check.Ensures.foldlM (Declares (Sees packages ast.packageName))
    (fun name => ∀ file, packages.find name = some file → NamesDiffer file)
    (fun name hname {value} hinv => ?_) (by simp [Declares])).mono
    fun ⟨hdeclares, hnames⟩ => ⟨hdeclares, hnames _ hown⟩
  cases hfind : packages.find name with
  | none => exact .pure ⟨hinv, nofun⟩
  | some file =>
    rw [map_fst_toList_eq_keys, Std.TreeMap.mem_keys] at hname
    have hkey := packages.find_packageName hfind
    have hvisible : Visible packages ast.packageName file.packageName := by
      rw [Visible, hkey]
      exact hreached name hname
    rw [← hkey] at hfind
    refine (ensures_collectDeclarations (fun definition hdefinition =>
      ⟨hvisible, file, hfind, definition, hdefinition, rfl⟩) hinv).mono fun ⟨hdeclares, hnodup⟩ =>
        ⟨hdeclares, fun other hother => Option.some.inj hother ▸ hnodup⟩

/-- A type that passes refers to declared structs only, and its error opens with its place. -/
theorem ensures_validateValueType (hdeclares : Declares P declarations) :
    ∀ {allowVoid : Bool} {nesting : Nat} {location : Bytes}, OpensPlainly location →
      Check.Ensures (validateValueType ast declarations allowVoid nesting location type)
        (fun _ => RefersTo P ast.packageName type) reported := by
  induction type with
  | prim primitive =>
    intro allowVoid nesting location h
    rw [validateValueType]
    exact ensures_tick.bind fun _ => .throw_if (h.append _).ne_cycleReport fun _ => .pure trivial
  | void =>
    intro allowVoid nesting location h
    rw [validateValueType]
    exact ensures_tick.bind fun _ => .throw_if (h.append _).ne_cycleReport fun _ =>
      .ite (fun _ => .pure trivial) fun _ => .throw (h.append _).ne_cycleReport
  | bareArray =>
    intro allowVoid nesting location h
    rw [validateValueType]
    exact ensures_tick.bind fun _ => .throw_if (h.append _).ne_cycleReport fun _ =>
      .throw (h.append _).ne_cycleReport
  | array element ih =>
    intro allowVoid nesting location h
    rw [validateValueType]
    exact ensures_tick.bind fun _ => .throw_if (h.append _).ne_cycleReport fun _ => ih (h.append _)
  | custom given name =>
    intro allowVoid nesting location h
    rw [validateValueType]
    refine ensures_tick.bind fun _ => .throw_if (h.append _).ne_cycleReport fun _ => ?_
    dsimp only
    split
    · exact .throw (((h.append _).append _).append _).ne_cycleReport
    · next hstruct =>
        obtain ⟨package, name', hqualified, hdefined⟩ := hdeclares _ hstruct
        obtain ⟨rfl, rfl⟩ := qualify_inj hqualified
        exact .pure hdefined
    · exact .throw (((h.append _).append _).append _).ne_cycleReport

theorem opensPlainly_fieldText (hkind : OpensPlainly (ascii kind)) (owner field : Ident) :
    OpensPlainly (fieldText kind owner field) :=
  ((((hkind.append _).append _).append _).append _).append _

/-- A key that is new, and later ones that differ from it and from each other. -/
theorem nodup_unseen {α : Type} {key : α → Bytes} {a : α} {others : List α} {seen : List Bytes}
    (hnew : key a ∉ seen) (hnodup : (others.map key).Nodup)
    (hunseen : ∀ other ∈ others, key other ∉ key a :: seen) :
    ((a :: others).map key).Nodup ∧ ∀ other ∈ a :: others, key other ∉ seen := by
  refine ⟨?_, forall_mem_cons.mpr ⟨hnew, fun other hother hmem =>
    hunseen other hother (mem_cons_of_mem _ hmem)⟩⟩
  rw [map_cons, nodup_cons]
  refine ⟨fun hmem => ?_, hnodup⟩
  obtain ⟨other, hother, hname⟩ := List.mem_map.mp hmem
  exact hunseen other hother (hname ▸ mem_cons_self)

/-- Fields that pass have different names, also from those seen before. -/
theorem ensures_validateFields (hdeclares : Declares P declarations)
    (hkind : OpensPlainly (ascii kind)) :
    ∀ {seen : List Bytes},
      Check.Ensures (validateFields ast declarations kind owner seen fields) (fun _ =>
        (∀ field ∈ fields, RefersTo P ast.packageName field.type) ∧
          (fields.map fun field => field.name.val).Nodup ∧
          ∀ field ∈ fields, field.name.val ∉ seen) reported := by
  induction fields with
  | nil => exact .pure (by simp)
  | cons field fields ih =>
    intro seen
    rw [validateFields]
    refine .throw_if ?_ fun hnew => ?_
    · exact OpensPlainly.ne_cycleReport
        (((((hkind.append _).append _).append _).append _).append _)
    have hfield := opensPlainly_fieldText hkind owner field.name
    exact (ensures_validateValueType hdeclares hfield).bind fun hrefers => ih.mono
      fun ⟨hrest, hnodup, hunseen⟩ =>
        ⟨forall_mem_cons.mpr ⟨hrefers, hrest⟩, nodup_unseen hnew hnodup hunseen⟩

theorem ensures_validateMembers (hdeclares : Declares P declarations)
    (hkind : OpensPlainly (ascii kind)) :
    Check.Ensures (validateMembers ast declarations kind owner fields) (fun _ =>
      (∀ field ∈ fields, RefersTo P ast.packageName field.type) ∧
        (fields.map fun field => field.name.val).Nodup) reported := by
  refine (ensures_validateFields hdeclares hkind).bind fun ⟨hrefers, hnodup, _⟩ => ?_
  refine (Check.Ensures.forM (fun _ => True) fun field => ?_).mono fun _ => ⟨hrefers, hnodup⟩
  have hfield := opensPlainly_fieldText hkind owner field.name
  refine .throw_if (hfield.append _).ne_cycleReport fun _ => ?_
  exact .ite (fun _ => .throw (hfield.append _).ne_cycleReport) fun _ => .pure trivial

/-- The property holds of every struct that the signature of a method names. -/
def MethodRefersTo (P : Ident → Ident → Prop) (package : Ident) (method : MethodDef) : Prop :=
  RefersTo P package method.returnType ∧ ∀ param ∈ method.param, RefersTo P package param.type

theorem opensPlainly_serviceText (service : ServiceDef) : OpensPlainly (serviceText service) :=
  .append (.append ⟨_, rfl, by decide⟩ _) _

theorem ensures_validateMethod (hdeclares : Declares P declarations)
    {method : MethodDef} : Check.Ensures (validateMethod ast declarations service method)
      (fun _ => MethodRefersTo P ast.packageName method) reported := by
  have htext := opensPlainly_serviceText service
  have hmethod : OpensPlainly (serviceText service ++ ascii " method '" ++ method.name.val ++
      ascii "'") := ((htext.append _).append _).append _
  unfold validateMethod
  refine .throw_if (((htext.append _).append _).append _).ne_cycleReport fun _ => ?_
  have hreturn : Check.Ensures (validateValueType ast declarations true 0 (_ ++ ascii " return type")
    method.returnType) _ reported := ensures_validateValueType hdeclares (hmethod.append _)
  split
  · next hparam => exact hreturn.mono fun hrefers => ⟨hrefers, by simp [hparam]⟩
  next param hparam =>
    refine .throw_if (((hmethod.append _).append _).append _).ne_cycleReport fun _ => ?_
    refine hreturn.bind fun hrefers => ?_
    refine (ensures_validateValueType hdeclares (hmethod.append _)).mono fun hparam' =>
      ⟨hrefers, fun other hother => ?_⟩
    rw [hparam, Option.mem_some_iff] at hother
    exact hother ▸ hparam'

theorem ensures_validateMethods (hdeclares : Declares P declarations)
    {methods : List MethodDef} : ∀ {seen : List Bytes},
      Check.Ensures (validateMethods ast declarations service seen methods)
        (fun _ => (∀ method ∈ methods, MethodRefersTo P ast.packageName method) ∧
          (methods.map fun method => method.name.val).Nodup ∧
          ∀ method ∈ methods, method.name.val ∉ seen) reported := by
  have htext := opensPlainly_serviceText service
  induction methods with
  | nil => exact .pure (by simp)
  | cons method methods ih =>
    intro seen
    rw [validateMethods]
    refine .throw_if (((htext.append _).append _).append _).ne_cycleReport fun hnew => ?_
    exact (ensures_validateMethod hdeclares).bind fun hmethod => ih.mono
      fun ⟨hmethods, hnodup, hunseen⟩ =>
        ⟨forall_mem_cons.mpr ⟨hmethod, hmethods⟩, nodup_unseen hnew hnodup hunseen⟩

theorem ensures_validatePublishes {topics : List Ident} :
    ∀ {seen : List Bytes},
      Check.Ensures (validatePublishes ast declarations service seen topics) (fun _ => True) reported := by
  have htext := opensPlainly_serviceText service
  induction topics with
  | nil => exact .pure trivial
  | cons topic topics ih =>
    intro seen
    rw [validatePublishes]
    refine .throw_if (((htext.append _).append _).append _).ne_cycleReport fun _ => ?_
    dsimp only
    split
    · exact .throw (((htext.append _).append _).append _).ne_cycleReport
    · exact ih
    · exact .throw (((htext.append _).append _).append _).ne_cycleReport

/-- What a file that passes its own checks guarantees. -/
structure FileChecked (packages : Packages) (ast : AstFile) : Prop where
  named : ast.packageName.val.isEmpty = false
  refers : FileRefersTo (Sees packages ast.packageName) ast
  names : ∀ file, packages.find ast.packageName.val = some file → NamesDiffer file
  fields : ∀ definition ∈ ast.structs, (definition.fields.map fun field => field.name.val).Nodup
  methods : ∀ service ∈ ast.services, (service.methods.map fun method => method.name.val).Nodup

/-- A file passes and reports a cycle when its structs are put in order, after its own checks. -/
theorem ensures_validateFile : Check.Ensures (validateFile ast packages)
    (fun ast' => FileChecked packages ast ∧ Check.Yields (orderStructs ast) ast') fun label =>
      FileChecked packages ast ∧ Check.Fails (orderStructs ast) (cycleReport label) := by
  refine .throw_if (ne_cycleReport_of_getLast? rfl (by decide)) fun hnamed => ?_
  refine .throw_if (ne_cycleReport_of_getLast? rfl (by decide)) fun _ => ?_
  refine .throw_if (ne_cycleReport_of_getLast? rfl (by decide)) fun _ => ?_
  refine .throw_if (ne_cycleReport_of_getLast? rfl (by decide)) fun _ => ?_
  refine ensures_buildVisibleDeclarations.bind fun ⟨hdeclares, hnames⟩ => ?_
  refine (Check.Ensures.forM _ fun _ => ensures_validateMembers hdeclares ⟨_, rfl, by decide⟩).bind
    fun hstructs => ?_
  refine (Check.Ensures.forM _ fun _ => ensures_validateMembers hdeclares ⟨_, rfl, by decide⟩).bind
    fun htopics => ?_
  refine (Check.Ensures.forM _ fun _ => (ensures_validateMethods hdeclares).bind fun hmethods =>
    ensures_validatePublishes.mono fun _ => hmethods).bind fun hservices => ?_
  rw [Bool.or_eq_true, not_or] at hnamed
  have hchecked : FileChecked packages ast :=
    ⟨Bool.eq_false_iff.mpr hnamed.2, ⟨fun definition h => (hstructs definition h).1,
      fun topic h => (htopics topic h).1,
      fun service h method h' => ((hservices service h).1 method h').1,
      fun service h method h' => ((hservices service h).1 method h').2⟩, hnames,
      fun definition h => (hstructs definition h).2, fun service h => (hservices service h).2.1⟩
  exact ⟨fun hyields => ⟨hchecked, hyields⟩, fun hfails => ⟨hchecked, hfails⟩⟩

/-! ### Reordering the structs -/

/-- The same file up to the order of its structs. -/
structure Reordered (ast ast' : AstFile) : Prop where
  packageName : ast'.packageName = ast.packageName
  importedPackages : ast'.importedPackages = ast.importedPackages
  topics : ast'.topics = ast.topics
  services : ast'.services = ast.services
  structs : ast'.structs.Perm ast.structs

theorem Reordered.refl (ast : AstFile) : Reordered ast ast := ⟨rfl, rfl, rfl, rfl, .refl _⟩

theorem Reordered.trans {ast'' : AstFile} (hfirst : Reordered ast ast')
    (hsecond : Reordered ast' ast'') : Reordered ast ast'' where
  packageName := hsecond.packageName.trans hfirst.packageName
  importedPackages := hsecond.importedPackages.trans hfirst.importedPackages
  topics := hsecond.topics.trans hfirst.topics
  services := hsecond.services.trans hfirst.services
  structs := hsecond.structs.trans hfirst.structs

theorem Reordered.symm (h : Reordered ast ast') : Reordered ast' ast :=
  ⟨h.packageName.symm, h.importedPackages.symm, h.topics.symm, h.services.symm, h.structs.symm⟩

theorem searchStructs_order {κ : Type} [Ord κ] {label : κ → Bytes}
    {search : DepthFirst.Search κ → Except (DepthFirst.Failure κ) (DepthFirst.Search κ)}
    {order : List κ} (h : Check.Yields (searchStructs label search) order) :
    ∃ calls s, search ⟨∅, [], calls⟩ = .ok s ∧ order = s.order := by
  obtain ⟨start, finish, h⟩ := h
  unfold searchStructs at h
  split at h
  · next s hsearch =>
      cases h
      exact ⟨start, s, hsearch, rfl⟩
  · cases h
  · cases h
  · cases h

/-- A struct found by name is one of the file. -/
theorem localIndex_some {name : Ident} {i : Nat} (h : localIndex ast name = some i) :
    ∃ definition, ast.structs[i]? = some definition ∧ definition.name = name := by
  simpa using find?_some h

theorem mem_localDependencies {i j : Nat} (h : j ∈ localDependencies ast i) :
    ∃ definition ∈ ast.structs[i]?, ∃ field ∈ definition.fields, ∃ given name,
      field.type = .custom given name ∧ resolvePackage ast.packageName given = ast.packageName ∧
        localIndex ast name = some j := by
  unfold localDependencies at h
  split at h
  · cases h
  next definition hdefinition =>
    obtain ⟨field, hfield, hj⟩ := List.mem_filterMap.mp h
    split at hj
    · next given name htype =>
        split_ifs at hj with hown
        exact ⟨definition, hdefinition, field, hfield, given, name, htype, hown, hj⟩
    · cases hj

/-- The search lists every position once. -/
theorem visitLocalStructs_perm {calls : Nat} {s : DepthFirst.Search Nat}
    (h : DepthFirst.Lists (localDependencies ast) ⟨∅, [], calls⟩ s (List.range ast.structs.length)) :
    s.order.Perm (List.range ast.structs.length) := by
  refine (perm_ext_iff_of_nodup h.sound.nodup nodup_range).mpr fun i => ?_
  rw [h.mem]
  constructor
  · rintro (hi | ⟨start, hstart, hreaches⟩)
    · cases hi
    induction hreaches with
    | refl => exact hstart
    | tail _ hedge _ =>
      obtain ⟨_, _, _, _, _, _, _, _, hindex⟩ := mem_localDependencies hedge
      obtain ⟨_, hj, _⟩ := localIndex_some hindex
      exact mem_range.mpr (List.getElem?_eq_some_iff.mp hj).1
  · exact fun hi => .inr ⟨i, hi, .refl⟩

theorem filterMap_getElem?_range {α : Type} (items : List α) :
    (List.range items.length).filterMap (fun i => items[i]?) = items := by
  induction items with
  | nil => rfl
  | cons item items ih =>
    rw [length_cons, range_succ_eq_map, filterMap_cons]
    simpa [filterMap_map, Function.comp_def] using ih

/-- Ordering the structs loses none of them. -/
theorem orderStructs_reordered (h : Check.Yields (orderStructs ast) ast') : Reordered ast ast' := by
  obtain ⟨order, horder, h⟩ := h.of_bind
  obtain rfl := h.of_pure
  obtain ⟨calls, s, hsearch, rfl⟩ := searchStructs_order horder
  refine ⟨rfl, rfl, rfl, rfl, ?_⟩
  have hperm := (visitLocalStructs_perm (DepthFirst.search_lists hsearch)).filterMap
    fun i => ast.structs[i]?
  rwa [filterMap_getElem?_range] at hperm

/-- The same packages up to the order of the structs in each of them. -/
def Packages.Reordered (packages packages' : Packages) : Prop :=
  ∀ name, Option.Rel Idl.Reordered (packages.find name) (packages'.find name)

theorem Packages.Reordered.refl (packages : Packages) : packages.Reordered packages := by
  intro name
  cases packages.find name with
  | none => exact Option.Rel.none
  | some ast => exact Option.Rel.some (Idl.Reordered.refl ast)

theorem Packages.Reordered.symm (h : packages.Reordered packages') : packages'.Reordered packages := by
  intro name
  have hrel := h name
  revert hrel
  generalize packages.find name = first
  generalize packages'.find name = second
  rintro (hrel | _)
  · exact Option.Rel.some hrel.symm
  · exact Option.Rel.none

theorem Packages.Reordered.trans {packages packages'' : Packages}
    (hfirst : packages.Reordered packages') (hsecond : packages'.Reordered packages'') :
    packages.Reordered packages'' := by
  intro name
  have h := hfirst name
  have h' := hsecond name
  revert h h'
  generalize packages.find name = first
  generalize packages'.find name = second
  generalize packages''.find name = third
  rintro (hone | _) (htwo | _)
  · exact Option.Rel.some (hone.trans htwo)
  · exact Option.Rel.none

theorem Packages.Reordered.insert (hfind : packages.find ast.packageName.val = some ast)
    (h : Idl.Reordered ast ast') : packages.Reordered (packages.insert ast') := by
  intro name
  rw [Packages.find_insert, h.packageName]
  split_ifs with hname
  · subst hname
    rw [hfind]
    exact Option.Rel.some h
  · exact Packages.Reordered.refl packages name

theorem Packages.Reordered.some_of_some (h : packages.Reordered packages')
    (hfind : packages.find name = some ast) :
    ∃ ast', packages'.find name = some ast' ∧ Idl.Reordered ast ast' := by
  have hrel := h name
  rw [hfind] at hrel
  cases hother : packages'.find name with
  | none =>
    rw [hother] at hrel
    cases hrel
  | some ast' =>
    rw [hother] at hrel
    cases hrel with
    | some hrel => exact ⟨ast', rfl, hrel⟩

theorem Packages.Reordered.of_some (h : packages.Reordered packages')
    (hfind : packages'.find name = some ast') :
    ∃ ast, packages.find name = some ast ∧ Idl.Reordered ast ast' := by
  obtain ⟨ast, hsome, hast⟩ := h.symm.some_of_some hfind
  exact ⟨ast, hsome, hast.symm⟩

theorem Defines.reordered {name : Ident} (h : packages.Reordered packages')
    (hdefines : Defines packages package name) : Defines packages' package name := by
  obtain ⟨ast, hfind, definition, hdefinition, hname⟩ := hdefines
  obtain ⟨ast', hfind', hast⟩ := h.some_of_some hfind
  exact ⟨ast', hfind', definition, hast.structs.mem_iff.mpr hdefinition, hname⟩

/-- The order of the structs does not matter to what a file refers to. -/
theorem FileRefersTo.reordered (hsame : Idl.Reordered ast ast') (h : FileRefersTo P ast) :
    FileRefersTo P ast' where
  structs definition hdefinition := by
    rw [hsame.packageName]
    exact h.structs definition (hsame.structs.mem_iff.mp hdefinition)
  topics := by
    rw [hsame.packageName, hsame.topics]
    exact h.topics
  returns := by
    rw [hsame.packageName, hsame.services]
    exact h.returns
  params := by
    rw [hsame.packageName, hsame.services]
    exact h.params

/-! ### Accepted packages -/

/-- The file is what the checks made of the original one, at a time when only the order of structs told
    the packages from these. -/
def Checked (original packages : Packages) (name : Bytes) (ast : AstFile) : Prop :=
  ∃ earlier file, original.find name = some file ∧ earlier.find name = some file ∧
    original.Reordered earlier ∧ Check.Yields (validateFile file earlier) ast ∧
    earlier.Reordered packages

/-- One step of the loop over the files. -/
def validateNext (packages : Packages) (name : Bytes) : Check Packages :=
  match packages.find name with
  | none => pure packages
  | some ast => do
      let ast ← validateFile ast packages
      return packages.insert ast

/-- A step changes the file of its name only, and there the order of the structs. -/
theorem validateNext_yields (h : Check.Yields (validateNext packages name) packages') :
    packages.Reordered packages' ∧ (∀ other, other ≠ name → packages'.find other = packages.find other) ∧
      ∀ ast, packages'.find name = some ast → ∃ file, packages.find name = some file ∧
        Check.Yields (validateFile file packages) ast := by
  unfold validateNext at h
  cases hfind : packages.find name with
  | none =>
    rw [hfind] at h
    obtain rfl := h.of_pure
    refine ⟨.refl _, fun _ _ => rfl, fun ast hast => ?_⟩
    rw [hfind] at hast
    cases hast
  | some file =>
    rw [hfind] at h
    obtain ⟨ordered, hfile, h⟩ := h.of_bind
    obtain rfl := h.of_pure
    have hordered := orderStructs_reordered (ensures_validateFile.passes hfile).2
    have hkey := packages.find_packageName hfind
    rw [← hordered.packageName] at hkey
    refine ⟨?_, fun other hother => ?_, fun ast hast => ⟨file, rfl, ?_⟩⟩
    · exact .insert (by rw [← hordered.packageName, hkey]; exact hfind) hordered
    · rw [Packages.find_insert, if_neg (hkey ▸ hother.symm)]
    · rw [Packages.find_insert, if_pos hkey] at hast
      exact Option.some.inj hast ▸ hfile

/-- One file after the other: each is checked against the packages of its turn, and what changes later
    is the order of the structs of other files. -/
theorem validateFiles_checks {names : List Bytes} (hnodup : names.Nodup) :
    ∀ {packages packages' : Packages}, Check.Yields (names.foldlM validateNext packages) packages' →
      packages.Reordered packages' ∧ (∀ name, name ∉ names → packages'.find name = packages.find name) ∧
        ∀ name ∈ names, ∀ ast, packages'.find name = some ast → Checked packages packages' name ast := by
  induction names with
  | nil =>
    intro packages packages' h
    rw [h.of_pure]
    exact ⟨.refl packages, fun _ _ => rfl, by simp⟩
  | cons name names ih =>
    intro packages packages' h
    obtain ⟨middle, hstep, h⟩ := h.of_bind
    obtain ⟨hnew, hnames⟩ := nodup_cons.mp hnodup
    obtain ⟨hnow, hothers, hfile⟩ := validateNext_yields hstep
    obtain ⟨hlater, hkept, hrest⟩ := ih hnames h
    refine ⟨hnow.trans hlater, fun other hother => ?_, fun other hother ast hast => ?_⟩
    · rw [mem_cons, not_or] at hother
      rw [hkept other hother.2, hothers other hother.1]
    cases hother with
    | head =>
      rw [hkept name hnew] at hast
      obtain ⟨file, hfind, hchecked⟩ := hfile ast hast
      exact ⟨packages, file, hfind, hfind, .refl packages, hchecked, hnow.trans hlater⟩
    | tail _ hother =>
      have hne : other ≠ name := fun hsame => hnew (hsame ▸ hother)
      obtain ⟨earlier, file, horiginal, hfind, hbefore, hchecked, hafter⟩ :=
        hrest other hother ast hast
      rw [hothers other hne] at horiginal
      exact ⟨earlier, file, horiginal, hfind, hnow.trans hbefore, hchecked, hafter⟩

/-- The packages that are checked: the loaded ones and the root. -/
def gathered (root : AstFile) (loaded : Packages) : Packages :=
  if root.packageName.val.isEmpty then loaded else loaded.insert root

theorem Packages.nodup_names (packages : Packages) : packages.names.Nodup := by
  rw [names, map_fst_toList_eq_keys]
  exact nodup_keys

section
variable (h : validateSemantics root loaded = .ok (ast, packages))
include h

/-- Every file of accepted packages passed the checks. -/
theorem validateSemantics_checks :
    (gathered root loaded).Reordered packages ∧ Check.Yields (validateCycles packages) () ∧
      ∀ {name file}, packages.find name = some file →
        Checked (gathered root loaded) packages name file := by
  have hyields : Check.Yields (checkSemantics root loaded) (ast, packages) := by
    unfold validateSemantics at h
    split at h
    · next result finish hcheck =>
        cases h
        exact ⟨0, finish, hcheck⟩
    · cases h
  obtain ⟨working, hworking, hyields⟩ := hyields.of_bind
  have hafter : packages = working ∧ Check.Yields (validateCycles packages) () := by
    split at hyields
    · obtain ⟨_, _, hyields⟩ := hyields.of_bind
      obtain ⟨_, hcycles, hyields⟩ := hyields.of_bind
      obtain ⟨-, rfl⟩ := Prod.mk.inj hyields.of_pure
      exact ⟨rfl, hcycles⟩
    · obtain ⟨_, hcycles, hyields⟩ := hyields.of_bind
      obtain ⟨-, rfl⟩ := Prod.mk.inj hyields.of_pure
      exact ⟨rfl, hcycles⟩
  obtain ⟨rfl, hcycles⟩ := hafter
  obtain ⟨hreordered, _, hchecked⟩ :=
    validateFiles_checks (gathered root loaded).nodup_names hworking
  refine ⟨hreordered, hcycles, fun {name file} hfile => ?_⟩
  obtain ⟨_, hsome, _⟩ := hreordered.of_some hfile
  exact hchecked name (Packages.mem_names hsome) file hfile

/-- In accepted packages every reference of every file resolves. -/
theorem validateSemantics_resolves
    {file : AstFile} (hfile : packages.find name = some file) : FileResolves packages file := by
  obtain ⟨earlier, before, _, _, _, hchecked, hpackages⟩ := (validateSemantics_checks h).2.2 hfile
  obtain ⟨hfile, horder⟩ := ensures_validateFile.passes hchecked
  have hdefined : FileRefersTo (Defines packages) before :=
    hfile.refers.mono fun hsees => hsees.2.reordered hpackages
  exact (hdefined.reordered (orderStructs_reordered horder)).resolves

/-- In accepted packages the fields of a struct have different names. -/
theorem validateSemantics_nodup
    {file : AstFile} (hfile : packages.find name = some file) {definition : StructDef}
    (hdefinition : definition ∈ file.structs) :
    (definition.fields.map fun field => field.name.val).Nodup := by
  obtain ⟨earlier, before, _, _, _, hchecked, _⟩ := (validateSemantics_checks h).2.2 hfile
  obtain ⟨hfile, horder⟩ := ensures_validateFile.passes hchecked
  exact hfile.fields definition ((orderStructs_reordered horder).structs.mem_iff.mp hdefinition)

end

end

end OmniBinder.Idl
