/-
Module: OmniBinder.Proofs.StructOrder
Purpose: The two searches of the validator over structs that contain each other by value, and which
  generated C++ headers declare every struct before it is used.
Trusted boundary: none
Main exports: accepted_packages_ordered, header_declares_before_use_iff
-/
import Mathlib.Data.List.Nodup
import OmniBinder.Proofs.ValidatorSpec
import OmniBinder.Idl.GeneratedCode

namespace OmniBinder.Idl

open OmniBinder List Option Std.TreeMap

variable {ast ast' : AstFile} {name : Bytes} {packages' : Packages} {definition : StructDef}

section
variable {packages : Packages}

theorem Checked.names {original : Packages} (h : Checked original packages name ast) :
    NamesDiffer ast ∧ ∀ service ∈ ast.services,
      (service.methods.map fun method => method.name.val).Nodup := by
  obtain ⟨earlier, file, _, hfile, _, hyields, _⟩ := h
  rw [← earlier.find_packageName hfile] at hfile
  obtain ⟨hchecked, horder⟩ := ensures_validateFile.passes hyields
  have hsame := orderStructs_reordered horder
  obtain ⟨hstructs, htopics⟩ := hchecked.names file hfile
  refine ⟨⟨(hsame.structs.map StructDef.name).nodup_iff.mpr hstructs, ?_⟩, ?_⟩
  · exact hsame.topics ▸ htopics
  · exact hsame.services ▸ hchecked.methods

/-! ### Contents by value -/

/-- The first struct has a field of the second, both given by package and name. -/
def ContainsByValue (packages : Packages) (struct content : Ident × Ident) : Prop :=
  ∃ ast, packages.find struct.1.val = some ast ∧
    ∃ definition ∈ ast.structs, definition.name = struct.2 ∧
      ∃ field ∈ definition.fields, ∃ given, field.type = .custom given content.2 ∧
        resolvePackage struct.1 given = content.1 ∧ Defines packages content.1 content.2

/-- Every struct of the file comes after those structs of the file that it contains by value. -/
def ContainedFirst (ast : AstFile) : Prop :=
  ∀ before definition after, ast.structs = before ++ definition :: after →
    ∀ field ∈ definition.fields, ∀ given name, field.type = .custom given name →
      resolvePackage ast.packageName given = ast.packageName →
        ∃ content ∈ before, content.name = name

theorem ContainsByValue.reordered {struct content : Ident × Ident}
    (h : packages.Reordered packages') (hcontains : ContainsByValue packages struct content) :
    ContainsByValue packages' struct content := by
  obtain ⟨ast, hfind, definition, hdefinition, hname, field, hfield, given, htype, hgiven, hdefines⟩ :=
    hcontains
  obtain ⟨ast', hfind', hast⟩ := h.some_of_some hfind
  exact ⟨ast', hfind', definition, hast.structs.mem_iff.mpr hdefinition, hname, field, hfield, given,
    htype, hgiven, hdefines.reordered h⟩

theorem Imports.reordered {importing imported : Bytes} (h : packages.Reordered packages')
    (himports : Imports packages importing imported) : Imports packages' importing imported := by
  obtain ⟨ast, hfind, package, hpackage, hname⟩ := himports
  obtain ⟨ast', hfind', hast⟩ := h.some_of_some hfind
  exact ⟨ast', hfind', package, hast.importedPackages.symm ▸ hpackage, hname⟩

theorem Sees.reordered {own package name : Ident} (h : packages.Reordered packages')
    (hsees : Sees packages own package name) : Sees packages' own package name :=
  ⟨Relation.ReflTransGen.lift id (fun _ _ himports => Imports.reordered h himports) _ _ hsees.1,
    hsees.2.reordered h⟩

/-! ### The search in a file -/

/-- A defined struct is found by its name. -/
theorem exists_localIndex (h : definition ∈ ast.structs) :
    ∃ i, localIndex ast definition.name = some i := by
  obtain ⟨i, hlt, hi⟩ := getElem_of_mem h
  rw [← isSome_iff_exists, localIndex, find?_isSome]
  refine ⟨i, mem_reverse.mpr (mem_range.mpr hlt), ?_⟩
  simp [getElem?_eq_getElem hlt, hi]

theorem localDependencies_mem {i j : Nat} (hdefinition : ast.structs[i]? = some definition)
    {field : FieldDef} (hfield : field ∈ definition.fields) {given name : Ident}
    (htype : field.type = .custom given name)
    (hgiven : resolvePackage ast.packageName given = ast.packageName)
    (hindex : localIndex ast name = some j) : j ∈ localDependencies ast i := by
  simp only [localDependencies, hdefinition]
  refine List.mem_filterMap.mpr ⟨field, hfield, ?_⟩
  simp only [htype]
  rw [if_pos hgiven, hindex]

/-- What the search over the structs of a file yields: every position once, after those of its contents,
    and one before another just if it is met before it. -/
structure SearchOrder (ast : AstFile) (order : List Nat) : Prop where
  perm : order.Perm (List.range ast.structs.length)
  after : DepthFirst.AfterSuccessors (localDependencies ast) order
  leads : ∀ {first second}, first ≠ second → (DepthFirst.Leads order first second ↔
    DepthFirst.MetBefore (localDependencies ast) first second (List.range ast.structs.length))

theorem orderStructs_searchOrder (h : Check.Yields (orderStructs ast) ast') :
    ∃ order, SearchOrder ast order ∧
      ast' = { ast with structs := order.filterMap fun i => ast.structs[i]? } := by
  obtain ⟨order, horder, h⟩ := h.of_bind
  obtain ⟨calls, s, hsearch, rfl⟩ := searchStructs_order horder
  have hlists := DepthFirst.search_lists hsearch
  exact ⟨s.order, ⟨visitLocalStructs_perm hlists, hlists.sound.after,
    fun hne => hlists.leads hne (by simp) (by simp)⟩, h.of_pure⟩

/-- A struct of the ordered file stands where its position stands in the order. -/
theorem SearchOrder.split {order : List Nat} (h : SearchOrder ast order)
    {before after : List StructDef}
    (hsplit : order.filterMap (fun i => ast.structs[i]?) = before ++ definition :: after) :
    ∃ first i rest, order = first ++ i :: rest ∧ ast.structs[i]? = some definition ∧
      first.filterMap (fun i => ast.structs[i]?) = before := by
  obtain ⟨first, rest, rfl, hfirst, hrest⟩ := filterMap_eq_append_iff.mp hsplit
  obtain ⟨skipped, i, later, rfl, hskipped, hi, _⟩ := filterMap_eq_cons_iff.mp hrest
  -- every position of the order is one of the file
  have hnone : skipped = [] := by
    refine eq_nil_iff_forall_not_mem.mpr fun k hk => ?_
    have hrange := h.perm.mem_iff.mp (mem_append_right first (mem_append_left _ hk))
    have hlt := mem_range.mp hrange
    exact absurd (hskipped k hk) (by simp [getElem?_eq_getElem hlt])
  subst hnone
  exact ⟨first, i, later, rfl, hi, hfirst⟩

/-- The order of the search is one in which contents come first. -/
theorem orderStructs_containedFirst (hfind : packages.find ast.packageName.val = some ast)
    (hresolves : ∀ definition ∈ ast.structs, ∀ field ∈ definition.fields, RefersTo (Defines packages) ast.packageName field.type)
    (h : Check.Yields (orderStructs ast) ast') : ContainedFirst ast' := by
  obtain ⟨order, horder, rfl⟩ := orderStructs_searchOrder h
  intro before definition after hsplit field hfield given name htype hgiven
  obtain ⟨first, i, rest, horder', hi, rfl⟩ := horder.split hsplit
  have hdefined := hresolves definition (mem_of_getElem? hi) field hfield
  rw [htype, RefersTo] at hdefined
  obtain ⟨file, hfile, content, hcontent, rfl⟩ := hdefined
  rw [show resolvePackage ast.packageName given = ast.packageName from hgiven, hfind] at hfile
  cases hfile
  obtain ⟨j, hj⟩ := exists_localIndex hcontent
  have hbefore := horder.after first i rest horder' j (localDependencies_mem hi hfield htype hgiven hj)
  obtain ⟨found, hfound, hname⟩ := localIndex_some hj
  exact ⟨found, List.mem_filterMap.mpr ⟨j, hbefore, hfound⟩, hname⟩

/-- A cycle of positions is a cycle of structs. -/
theorem localCycle_contains (hfind : packages.find ast.packageName.val = some ast) {i : Nat}
    (h : Relation.TransGen (DepthFirst.Edge (localDependencies ast)) i i) :
    ∃ definition, ast.structs[i]? = some definition ∧
      Relation.TransGen (ContainsByValue packages) (ast.packageName, definition.name)
        (ast.packageName, definition.name) := by
  let struct (i : Nat) : Ident × Ident :=
    (ast.packageName, ((ast.structs[i]?).map StructDef.name).getD .empty)
  have hstruct : ∀ {i definition}, ast.structs[i]? = some definition →
      struct i = (ast.packageName, definition.name) := fun hi => by
    simp only [struct, hi, map_some, getD_some]
  have hstep : ∀ i j, DepthFirst.Edge (localDependencies ast) i j →
      ContainsByValue packages (struct i) (struct j) := by
    intro i j hedge
    obtain ⟨definition, hi, field, hfield, given, name, htype, hgiven, hindex⟩ :=
      mem_localDependencies hedge
    obtain ⟨content, hj, rfl⟩ := localIndex_some hindex
    rw [hstruct (mem_def.mp hi), hstruct hj]
    exact ⟨ast, hfind, definition, mem_of_getElem? hi, rfl, field, hfield, given, htype, hgiven,
      ast, hfind, content, mem_of_getElem? hj, rfl⟩
  have hcycle : Relation.TransGen (ContainsByValue packages) (struct i) (struct i) :=
    Relation.TransGen.lift struct hstep _ _ h
  obtain ⟨j, hedge, _⟩ := Relation.TransGen.head'_iff.mp h
  obtain ⟨definition, hi, _⟩ := mem_localDependencies hedge
  rw [hstruct (mem_def.mp hi)] at hcycle
  exact ⟨definition, hi, hcycle⟩

/-! ### The search over all packages -/

/-- The structs of one file under their qualified names. -/
def addStructs (structs : Table Bytes (Ident × StructDef)) (ast : AstFile) :
    Table Bytes (Ident × StructDef) :=
  ast.structs.foldl (fun structs definition =>
    structs.insert (qualify ast.packageName definition.name) (ast.packageName, definition)) structs

/-- Every entry is a struct of one of the packages under its qualified name. -/
def EntriesDefined (packages : Packages) (structs : Table Bytes (Ident × StructDef)) : Prop :=
  ∀ (name : Bytes) (entry : Ident × StructDef), structs[name]? = some entry →
    name = qualify entry.1 entry.2.name ∧
      ∃ ast, packages.find entry.1.val = some ast ∧ entry.2 ∈ ast.structs

theorem addStructs_entries (hfind : packages.find ast.packageName.val = some ast)
    {structs : Table Bytes (Ident × StructDef)} (h : EntriesDefined packages structs) :
    EntriesDefined packages (addStructs structs ast) := by
  refine List.foldlRecOn ast.structs _ h fun structs hstructs definition hdefinition => ?_
  intro name entry hentry
  rcases Table.of_insert hentry with ⟨rfl, rfl⟩ | ⟨-, hentry⟩
  · exact ⟨rfl, ast, hfind, hdefinition⟩
  · exact hstructs name entry hentry

theorem addStructs_keeps {structs : Table Bytes (Ident × StructDef)} (h : name ∈ structs) :
    name ∈ addStructs structs ast :=
  List.foldlRecOn (motive := (name ∈ ·)) ast.structs _ h fun _ hmem _ _ => mem_insert.mpr (.inr hmem)

/-- What an element of a list brings about and the others keep holds after going through the list. -/
theorem foldl_of_mem {α β : Type} {P : β → Prop} {f : β → α → β} {l : List α} {x : α} (hmem : x ∈ l)
    (hadd : ∀ s, P (f s x)) (hkeep : ∀ s y, P s → P (f s y)) (s : β) : P (l.foldl f s) := by
  obtain ⟨before, after, rfl⟩ := append_of_mem hmem
  rw [foldl_append, foldl_cons]
  exact List.foldlRecOn after f (hadd _) fun s hs y _ => hkeep s y hs

theorem allStructs_entries (packages : Packages) : EntriesDefined packages (allStructs packages) := by
  refine List.foldlRecOn packages.table.toList _ (by simp [EntriesDefined])
    fun structs hstructs entry hentry => ?_
  have hfind : packages.find entry.1 = some entry.2 := Table.mem_toList.mp hentry
  rw [← packages.find_packageName hfind] at hfind
  exact addStructs_entries hfind hstructs

theorem allStructs_contains {package name : Ident} (h : Defines packages package name) :
    qualify package name ∈ allStructs packages := by
  obtain ⟨ast, hfind, definition, hdefinition, rfl⟩ := h
  obtain rfl : ast.packageName = package := Subtype.ext (packages.find_packageName hfind)
  refine foldl_of_mem (P := (qualify _ _ ∈ ·)) (Table.mem_toList.mpr hfind) (fun structs => ?_)
    (fun _ _ => addStructs_keeps) ∅
  exact foldl_of_mem (P := (qualify _ _ ∈ ·)) hdefinition (fun _ => Std.TreeMap.mem_insert_self)
    (fun _ _ hmem => mem_insert.mpr (.inr hmem)) structs

/-- A dependency of the search is a field. -/
theorem valueDependencies_contains {target : Bytes}
    (h : target ∈ valueDependencies (allStructs packages) name) :
    ∃ struct content : Ident × Ident, name = qualify struct.1 struct.2 ∧
      target = qualify content.1 content.2 ∧ ContainsByValue packages struct content := by
  unfold valueDependencies at h
  split at h
  · cases h
  next package definition hentry =>
    obtain ⟨rfl, ast, hfind, hdefinition⟩ := allStructs_entries packages _ _ hentry
    obtain ⟨field, hfield, htarget⟩ := List.mem_filterMap.mp h
    split at htarget
    · next given custom htype =>
        dsimp only at htarget
        split_ifs at htarget with hcontains
        cases htarget
        refine ⟨(package, definition.name), (resolvePackage package given, custom), rfl, rfl, ast, hfind,
          definition, hdefinition, rfl, field, hfield, given, htype, rfl, ?_⟩
        obtain ⟨entry, hother⟩ := isSome_iff_exists.mp
          (isSome_getElem?_eq_contains.trans hcontains)
        obtain ⟨hname, ast', hfind', hmem⟩ := allStructs_entries packages _ _ hother
        obtain ⟨hpackage, hcustom⟩ := qualify_inj hname
        simp only [hpackage, hcustom]
        exact ⟨ast', hfind', entry.2, hmem, rfl⟩
    · cases htarget

section
variable (hnames : ∀ {name ast}, packages.find name = some ast → (ast.structs.map StructDef.name).Nodup)
include hnames

/-- A field is a dependency of the search, if no two structs of a package have the same name. -/
theorem ContainsByValue.dependency {struct content : Ident × Ident}
    (h : ContainsByValue packages struct content) : qualify content.1 content.2 ∈
      valueDependencies (allStructs packages) (qualify struct.1 struct.2) := by
  obtain ⟨ast, hfind, definition, hdefinition, hname, field, hfield, given, htype, hgiven, hdefines⟩ := h
  have hmem : qualify struct.1 struct.2 ∈ allStructs packages :=
    allStructs_contains ⟨ast, hfind, definition, hdefinition, hname⟩
  obtain ⟨⟨package, other⟩, hentry⟩ := isSome_iff_exists.mp
    (mem_iff_isSome_getElem?.mp hmem)
  -- the entry under the name is the struct itself
  obtain ⟨hqualified, ast', hfind', hother⟩ := allStructs_entries packages _ _ hentry
  obtain ⟨rfl, hsame⟩ := qualify_inj hqualified
  rw [hfind] at hfind'
  cases hfind'
  have : other = definition :=
    inj_on_of_nodup_map (hnames hfind) hother hdefinition (hsame.symm.trans hname.symm)
  subst this
  unfold valueDependencies
  rw [hentry]
  refine List.mem_filterMap.mpr ⟨field, hfield, ?_⟩
  rw [htype]
  dsimp only
  rw [hgiven, if_pos (mem_iff_contains.mp (allStructs_contains hdefines))]

/-- The search over all packages comes to its end only if no struct contains itself. -/
theorem validateCycles_acyclic (h : Check.Yields (validateCycles packages) ())
    (struct : Ident × Ident) : ¬ Relation.TransGen (ContainsByValue packages) struct struct := by
  intro hcycle
  obtain ⟨order, horder, _⟩ := h.of_bind
  obtain ⟨calls, s, hsearch, rfl⟩ := searchStructs_order horder
  have hlists := DepthFirst.search_lists hsearch
  have hqualified : Relation.TransGen (DepthFirst.Edge (valueDependencies (allStructs packages)))
      (qualify struct.1 struct.2) (qualify struct.1 struct.2) :=
    Relation.TransGen.lift (fun struct : Ident × Ident => qualify struct.1 struct.2)
      (fun _ _ hcontains => hcontains.dependency hnames) _ _ hcycle
  -- a struct with a field is among those searched
  obtain ⟨content, hcontains, _⟩ := Relation.TransGen.head'_iff.mp hcycle
  obtain ⟨ast, hfind, definition, hdefinition, hname, _⟩ := hcontains
  have hkey : qualify struct.1 struct.2 ∈ (allStructs packages).toList.map Prod.fst := by
    rw [map_fst_toList_eq_keys, Std.TreeMap.mem_keys]
    exact allStructs_contains ⟨ast, hfind, definition, hdefinition, hname⟩
  have hlisted := (hlists.mem _).mpr (.inr ⟨_, hkey, .refl⟩)
  exact hlists.sound.after.acyclic hlists.sound.nodup hlisted hqualified

end

/-- A cycle of qualified names is a cycle of structs. -/
theorem valueCycle_contains {label : Bytes}
    (h : Relation.TransGen (DepthFirst.Edge (valueDependencies (allStructs packages))) label label) :
    ∃ struct : Ident × Ident, label = qualify struct.1 struct.2 ∧
      Relation.TransGen (ContainsByValue packages) struct struct := by
  have hpath : ∀ {name target : Bytes},
      Relation.TransGen (DepthFirst.Edge (valueDependencies (allStructs packages))) name target →
        ∃ struct content : Ident × Ident, name = qualify struct.1 struct.2 ∧
          target = qualify content.1 content.2 ∧
          Relation.TransGen (ContainsByValue packages) struct content := by
    intro name target hpath
    induction hpath with
    | single hedge =>
      obtain ⟨struct, content, hname, htarget, hcontains⟩ := valueDependencies_contains hedge
      exact ⟨struct, content, hname, htarget, .single hcontains⟩
    | tail _ hedge ih =>
      obtain ⟨struct, middle, hname, hmiddle, hpath⟩ := ih
      obtain ⟨middle', content, hmiddle', htarget, hcontains⟩ := valueDependencies_contains hedge
      have hsame : middle = middle' := Prod.ext_iff.mpr (qualify_inj (hmiddle.symm.trans hmiddle'))
      exact ⟨struct, content, hname, htarget, hpath.tail (hsame ▸ hcontains)⟩
  obtain ⟨struct, content, hname, htarget, hcycle⟩ := hpath h
  have hsame : struct = content := Prod.ext_iff.mpr (qualify_inj (hname.symm.trans htarget))
  exact ⟨struct, hname, hsame ▸ hcycle⟩

/-! ### Where a report comes from -/

variable {label : Bytes}

/-- A search over structs reports the cycle that it stopped at. -/
theorem searchStructs_fails {κ : Type} [Ord κ] {nameOf : κ → Bytes}
    {search : DepthFirst.Search κ → Except (DepthFirst.Failure κ) (DepthFirst.Search κ)}
    (h : Check.Fails (searchStructs nameOf search) (cycleReport label)) :
    ∃ calls node, search ⟨∅, [], calls⟩ = .error (.cycle node) ∧ nameOf node = label := by
  obtain ⟨start, h⟩ := h
  unfold searchStructs at h
  split at h
  · cases h
  · exact absurd (Except.error.inj h) (OpensPlainly.ne_cycleReport ⟨_, rfl, by decide⟩ _)
  · exact absurd (Except.error.inj h) (OpensPlainly.ne_cycleReport ⟨_, rfl, by decide⟩ _)
  · next node hsearch =>
      refine ⟨start, node, hsearch, ?_⟩
      have htext := Except.error.inj h
      exact append_cancel_left (append_cancel_right htext)

/-- The report of a file names a cycle among its structs. -/
theorem orderStructs_fails (h : Check.Fails (orderStructs ast) (cycleReport label)) :
    ∃ i, Relation.TransGen (DepthFirst.Edge (localDependencies ast)) i i ∧
      (ast.structs[i]?.map fun definition => qualify ast.packageName definition.name).getD [] =
        label := by
  rcases h.of_bind with h | ⟨_, _, h⟩
  · obtain ⟨calls, i, hsearch, hlabel⟩ := searchStructs_fails h
    exact ⟨i, DepthFirst.search_cycle hsearch, hlabel⟩
  · exact h.not_pure.elim

/-- The report of all packages names a cycle among their structs. -/
theorem validateCycles_fails (h : Check.Fails (validateCycles packages) (cycleReport label)) :
    Relation.TransGen (DepthFirst.Edge (valueDependencies (allStructs packages))) label label := by
  rcases h.of_bind with h | ⟨_, _, h⟩
  · obtain ⟨calls, name, hsearch, rfl⟩ := searchStructs_fails h
    exact DepthFirst.search_cycle hsearch
  · exact h.not_pure.elim

/-- A report comes from the structs of one file, or from all of them. -/
theorem validateSemantics_fails {root : AstFile} {loaded : Packages}
    (h : validateSemantics root loaded = .error (cycleReport label)) :
    ∃ packages, (gathered root loaded).Reordered packages ∧
      ((∃ name file, packages.find name = some file ∧
          Check.Fails (orderStructs file) (cycleReport label)) ∨
        Check.Fails (validateCycles packages) (cycleReport label)) := by
  have hfails : Check.Fails (checkSemantics root loaded) (cycleReport label) := by
    unfold validateSemantics at h
    split at h
    · cases h
    · next hcheck => exact ⟨0, Except.error.inj h ▸ hcheck⟩
  rcases hfails.of_bind with hfails | ⟨working, hworking, hfails⟩
  · -- one of the files fails
    have hfiles : Check.Ensures ((gathered root loaded).names.foldlM validateNext (gathered root loaded))
        (gathered root loaded).Reordered fun label => ∃ packages, (gathered root loaded).Reordered packages ∧
          ∃ name file, packages.find name = some file ∧
            Check.Fails (orderStructs file) (cycleReport label) := by
      refine (Check.Ensures.foldlM _ (fun _ => True) (fun name _ {packages} hreordered =>
        ⟨fun hyields => ?_, fun hfails => ?_⟩) (.refl _)).mono And.left
      · exact ⟨hreordered.trans (validateNext_yields hyields).1, trivial⟩
      unfold validateNext at hfails
      split at hfails
      · exact hfails.not_pure.elim
      · next file hfile =>
          rcases hfails.of_bind with hfails | ⟨_, _, hfails⟩
          · exact ⟨packages, hreordered, name, file, hfile, (ensures_validateFile.reports hfails).2⟩
          · exact hfails.not_pure.elim
    obtain ⟨packages, hreordered, hfile⟩ := hfiles.reports hfails
    exact ⟨packages, hreordered, .inl hfile⟩
  · obtain ⟨hreordered, _⟩ := validateFiles_checks (gathered root loaded).nodup_names hworking
    refine ⟨working, hreordered, .inr ?_⟩
    split_ifs at hfails with hempty
    · -- a root without a package is rejected before its structs are looked at
      have hnamed : FileChecked working root := by
        rcases hfails.of_bind with hroot | ⟨_, hroot, _⟩
        · exact (ensures_validateFile.reports hroot).1
        · exact (ensures_validateFile.passes hroot).1
      exact absurd hempty (by rw [hnamed.named]; decide)
    · rcases hfails.of_bind with hfails | ⟨_, _, hfails⟩
      · exact hfails
      · exact hfails.not_pure.elim

end

/-! ### Accepted and rejected packages -/

/-- In accepted packages every reference of a file leads to a struct of a package that the file can see,
    no struct contains itself by value, and every file lists its own structs, each after those it
    contains. If a cycle is reported, the reported struct contains itself. -/
theorem accepted_packages_ordered (root : AstFile) (loaded : Packages) :
    (∀ ast packages, validateSemantics root loaded = .ok (ast, packages) →
      (∀ name file, packages.find name = some file →
        FileRefersTo (Sees packages file.packageName) file) ∧
      (∀ struct, ¬ Relation.TransGen (ContainsByValue packages) struct struct) ∧
      (∀ name, Option.Rel (fun original file => file.structs.Perm original.structs ∧ ContainedFirst file)
        ((gathered root loaded).find name) (packages.find name))) ∧
    (∀ label, validateSemantics root loaded = .error (cycleReport label) →
      ∃ package name, label = qualify package name ∧
        Relation.TransGen (ContainsByValue (gathered root loaded)) (package, name) (package, name)) := by
  refine ⟨fun ast packages h => ?_, fun label h => ?_⟩
  · obtain ⟨hreordered, hcycles, hchecked⟩ := validateSemantics_checks h
    refine ⟨fun name file hfile => ?_, validateCycles_acyclic (fun {name file} hfile => ?_) hcycles,
      fun name => ?_⟩
    · obtain ⟨earlier, original, _, _, _, hyields, hlater⟩ := hchecked hfile
      obtain ⟨hown, horder⟩ := ensures_validateFile.passes hyields
      have hsame := orderStructs_reordered horder
      rw [hsame.packageName]
      exact (hown.refers.mono (Sees.reordered hlater)).reordered hsame
    · exact (hchecked hfile).names.1.1
    · cases hfile : packages.find name with
      | none =>
        have hrel := hreordered name
        rw [hfile] at hrel
        cases hother : (gathered root loaded).find name with
        | none => exact Option.Rel.none
        | some original =>
          rw [hother] at hrel
          cases hrel
      | some file =>
        obtain ⟨earlier, original, horiginal, hearlier, _, hyields, _⟩ := hchecked hfile
        obtain ⟨hown, horder⟩ := ensures_validateFile.passes hyields
        rw [horiginal]
        refine Option.Rel.some ⟨(orderStructs_reordered horder).structs, ?_⟩
        rw [← earlier.find_packageName hearlier] at hearlier
        exact orderStructs_containedFirst hearlier (hown.refers.mono And.right).structs horder
  · obtain ⟨packages, hreordered, hfails⟩ := validateSemantics_fails h
    have hback := hreordered.symm
    have hlift : ∀ {struct}, Relation.TransGen (ContainsByValue packages) struct struct →
        Relation.TransGen (ContainsByValue (gathered root loaded)) struct struct := fun {struct} hcycle =>
      Relation.TransGen.lift id (fun _ _ hcontains => hcontains.reordered hback) _ _ hcycle
    rcases hfails with ⟨name, file, hfile, hfails⟩ | hfails
    · obtain ⟨i, hcycle, hlabel⟩ := orderStructs_fails hfails
      rw [← packages.find_packageName hfile] at hfile
      obtain ⟨definition, hi, hcycle⟩ := localCycle_contains hfile hcycle
      rw [hi] at hlabel
      exact ⟨file.packageName, definition.name, hlabel.symm, hlift hcycle⟩
    · obtain ⟨struct, hlabel, hcycle⟩ := valueCycle_contains (validateCycles_fails hfails)
      exact ⟨struct.1, struct.2, hlabel, hlift hcycle⟩

/-! ### Reading a header -/

/-- The structs of the own package that a type names, at any nesting of arrays. -/
def TypeRef.ownNames (package : Ident) : TypeRef → List Ident
  | .custom given name => if resolvePackage package given = package then [name] else []
  | .array element => element.ownNames package
  | _ => []

theorem usedNames_cppTypeName (package : Ident) (type : TypeRef) :
    (cppTypeName type).usedNames package = type.ownNames package := by
  induction type with
  | prim primitive => cases primitive <;> rfl
  | void => rfl
  | custom given name => rfl
  | array element ih => exact ih
  | bareArray => rfl

theorem mem_usedNames {package owner name : Ident} {fields : List FieldDef} :
    name ∈ (emitStructFields owner fields).usedNames package ↔
      ∃ field ∈ fields, name ∈ field.type.ownNames package := by
  simp [CppClass.usedNames, emitStructFields, usedNames_cppTypeName]

theorem mem_ownNames {package name : Ident} {type : TypeRef} {P : Ident → Ident → Prop}
    (hmem : name ∈ type.ownNames package) (h : RefersTo P package type) : P package name := by
  induction type with
  | custom given custom =>
    rw [TypeRef.ownNames] at hmem
    split_ifs at hmem with hown
    · rw [mem_singleton] at hmem
      subst hmem
      rw [RefersTo, hown] at h
      exact h
    · cases hmem
  | array element ih => exact ih hmem h
  | prim primitive => cases hmem
  | void => cases hmem
  | bareArray => cases hmem

/-- The structs at the top of a header, and what comes after them. -/
theorem declaredBeforeUse_structs {package : Ident} {structs : List StructDef} {items : List HeaderItem} :
    ∀ {declared : List Ident},
      declaredBeforeUse package declared (structs.map genStruct ++ items) = true ↔
        (∀ before definition after, structs = before ++ definition :: after →
          ∀ field ∈ definition.fields, ∀ name ∈ field.type.ownNames package,
            name ∈ definition.name :: ((before.map StructDef.name).reverse ++ declared)) ∧
        declaredBeforeUse package ((structs.map StructDef.name).reverse ++ declared) items = true := by
  induction structs with
  | nil => simp
  | cons definition structs ih =>
    intro declared
    rw [map_cons, cons_append, genStruct, declaredBeforeUse, Bool.and_eq_true, ih,
      ← and_assoc, map_cons, reverse_cons, append_assoc, singleton_append]
    refine and_congr_left fun _ => ?_
    simp only [List.all_eq_true, decide_eq_true_eq, mem_usedNames]
    constructor
    · rintro ⟨hfirst, hrest⟩ before other after hsplit field hfield name hname
      cases before with
      | nil =>
        cases hsplit
        exact hfirst name ⟨field, hfield, hname⟩
      | cons head before =>
        cases hsplit
        simpa [emitStructFields] using hrest before other after rfl field hfield name hname
    · refine fun h => ⟨?_, fun before other after hsplit field hfield name hname => ?_⟩
      · rintro name ⟨field, hfield, hname⟩
        exact h [] definition structs rfl field hfield name hname
      · simpa [emitStructFields] using
          h (definition :: before) other after (by rw [hsplit, cons_append]) field hfield name hname

/-- Topics use declared structs, and services nothing that matters here. -/
theorem declaredBeforeUse_topics {package : Ident} {declared : List Ident} {topics : List TopicDef}
    {services : List ServiceDef} :
    (∀ topic ∈ topics, ∀ field ∈ topic.fields, ∀ name ∈ field.type.ownNames package,
      name ∈ declared) →
    declaredBeforeUse package declared (topics.map genTopic ++
      services.flatMap fun service => [.stub service.name, .proxy service.name]) = true := by
  intro h
  induction topics with
  | nil =>
    induction services with
    | nil => rfl
    | cons service services ih => simpa [declaredBeforeUse] using ih
  | cons topic topics ih =>
    rw [map_cons, cons_append, genTopic, declaredBeforeUse, Bool.and_eq_true]
    refine ⟨?_, ih fun other hother => h other (mem_cons_of_mem _ hother)⟩
    simp only [List.all_eq_true, decide_eq_true_eq, mem_usedNames]
    rintro name ⟨field, hfield, hname⟩
    exact h topic mem_cons_self field hfield name hname

/-! ### Arrays of structs -/

/-- A struct that is the element of an array in another struct is met before that struct, when the
    structs are walked through in the order of their declaration and, inside each of them, those of its
    by-value fields. -/
def ElementsMetFirst (ast : AstFile) : Prop :=
  ∀ (i : Nat) (definition : StructDef), ast.structs[i]? = some definition →
    ∀ field ∈ definition.fields, ∀ element, field.type = .array element →
      ∀ name ∈ element.ownNames ast.packageName, name ≠ definition.name →
        ∀ j, localIndex ast name = some j →
          DepthFirst.MetBefore (localDependencies ast) j i (List.range ast.structs.length)

section
variable {ast : AstFile} {order : List Nat}

/-- With different names, a struct is found under its own position. -/
theorem localIndex_eq (hnames : (ast.structs.map StructDef.name).Nodup) {i : Nat}
    {definition : StructDef} (hi : ast.structs[i]? = some definition) :
    localIndex ast definition.name = some i := by
  obtain ⟨j, hj⟩ := exists_localIndex (mem_of_getElem? hi)
  obtain ⟨found, hfound, hname⟩ := localIndex_some hj
  have hsame : (ast.structs.map StructDef.name)[j]? = (ast.structs.map StructDef.name)[i]? := by
    rw [List.getElem?_map, List.getElem?_map, hfound, hi, map_some, hname, map_some]
  have hlt : j < (ast.structs.map StructDef.name).length := by
    simpa using (List.getElem?_eq_some_iff.mp hfound).1
  rw [hj, (getElem?_inj hlt hnames).mp hsame]

/-- A struct is declared before another one just if its position leads. -/
theorem SearchOrder.declared_iff (h : SearchOrder ast order)
    (hnames : (ast.structs.map StructDef.name).Nodup) {first rest : List Nat} {i j : Nat} {name : Ident}
    (horder : order = first ++ i :: rest) (hj : localIndex ast name = some j) :
    (∃ content ∈ first.filterMap (fun k => ast.structs[k]?), content.name = name) ↔
      DepthFirst.Leads order j i := by
  have hnodup : order.Nodup := h.perm.nodup_iff.mpr nodup_range
  have hi : i ∉ first := by
    rw [horder, nodup_append] at hnodup
    exact fun hmem => hnodup.2.2 i hmem i mem_cons_self rfl
  have hleads : DepthFirst.Leads order j i ↔ j ∈ first := by
    rw [horder, append_cons, DepthFirst.leads_append_of_mem (by simp),
      DepthFirst.leads_concat_self hi]
  rw [hleads]
  constructor
  · rintro ⟨content, hcontent, rfl⟩
    obtain ⟨k, hk, hcontent⟩ := List.mem_filterMap.mp hcontent
    rw [localIndex_eq hnames hcontent] at hj
    exact Option.some.inj hj ▸ hk
  · intro hmem
    obtain ⟨found, hfound, hname⟩ := localIndex_some hj
    exact ⟨found, List.mem_filterMap.mpr ⟨j, hmem, hfound⟩, hname⟩

end

/-- The header of an ordered file is in order just if the elements of its arrays are met first. -/
theorem declaredBeforeUse_iff {packages : Packages} {ast ast' : AstFile}
    (hfind : packages.find ast.packageName.val = some ast)
    (hyields : Check.Yields (validateFile ast packages) ast') :
    declaredBeforeUse ast'.packageName [] (generateHeader ast') = true ↔ ElementsMetFirst ast := by
  obtain ⟨hown, hordered⟩ := ensures_validateFile.passes hyields
  have hdefines := hown.refers.mono And.right
  have hnames := (hown.names ast hfind).1
  have hcontained := orderStructs_containedFirst hfind hdefines.structs hordered
  obtain ⟨order, horder, rfl⟩ := orderStructs_searchOrder hordered
  have hdeclared : ∀ {name}, Defines packages ast.packageName name →
      ∃ j, localIndex ast name = some j := by
    rintro name ⟨file, hfile, definition, hdefinition, rfl⟩
    rw [hfind] at hfile
    cases hfile
    exact exists_localIndex hdefinition
  have hinj : ∀ {i j : Nat} {definition : StructDef} {name : Ident},
      ast.structs[i]? = some definition → localIndex ast name = some j → name ≠ definition.name →
        j ≠ i := by
    rintro i j definition name hi hj hne rfl
    obtain ⟨found, hfound, rfl⟩ := localIndex_some hj
    rw [hi] at hfound
    cases hfound
    exact hne rfl
  rw [generateHeader, append_assoc, declaredBeforeUse_structs]
  constructor
  · rintro ⟨hstructs, _⟩ i definition hi field hfield element htype name hname hne j hj
    -- the position of the struct in the order gives its place in the header
    have hmem : i ∈ order :=
      horder.perm.mem_iff.mpr (mem_range.mpr (List.getElem?_eq_some_iff.mp hi).1)
    obtain ⟨first, rest, hsplit⟩ := append_of_mem hmem
    have hplace : order.filterMap (fun k => ast.structs[k]?) =
        first.filterMap (fun k => ast.structs[k]?) ++
          definition :: rest.filterMap (fun k => ast.structs[k]?) := by
      rw [hsplit, filterMap_append, filterMap_cons_some hi]
    have hown : name ∈ field.type.ownNames ast.packageName := by rwa [htype]
    have hbefore := (mem_cons.mp (hstructs _ definition _ hplace field hfield name hown)).resolve_left hne
    rw [append_nil, mem_reverse, List.mem_map] at hbefore
    rw [← horder.leads (hinj hi hj hne)]
    exact (horder.declared_iff hnames hsplit hj).mp hbefore
  · refine fun h => ⟨fun before definition after hsplit field hfield name hname => ?_,
      declaredBeforeUse_topics fun topic htopic field hfield name hname => ?_⟩
    · obtain ⟨first, i, rest, hplace, hi, rfl⟩ := horder.split hsplit
      have hmem := mem_of_getElem? hi
      by_cases hself : name = definition.name
      · exact hself ▸ mem_cons_self
      refine mem_cons_of_mem _ ?_
      rw [append_nil, mem_reverse, List.mem_map]
      cases htype : field.type with
      | custom given custom =>
        rw [htype, TypeRef.ownNames] at hname
        split_ifs at hname with hown
        · rw [mem_singleton] at hname
          subst hname
          exact hcontained _ definition after hsplit field hfield given name htype hown
        · cases hname
      | array element =>
        rw [htype] at hname
        have hrefer := hdefines.structs definition hmem field hfield
        rw [htype] at hrefer
        obtain ⟨j, hj⟩ := hdeclared (mem_ownNames hname hrefer)
        rw [horder.declared_iff hnames hplace hj, horder.leads (hinj hi hj hself)]
        exact h i definition hi field hfield element htype name hname hself j hj
      | prim primitive =>
        rw [htype] at hname
        cases hname
      | void =>
        rw [htype] at hname
        cases hname
      | bareArray =>
        rw [htype] at hname
        cases hname
    · obtain ⟨j, hj⟩ := hdeclared (mem_ownNames hname (hdefines.topics topic htopic field hfield))
      obtain ⟨found, hfound, rfl⟩ := localIndex_some hj
      have hmem := horder.perm.mem_iff.mpr (mem_range.mpr (List.getElem?_eq_some_iff.mp hfound).1)
      rw [append_nil, mem_reverse]
      exact List.mem_map_of_mem (List.mem_filterMap.mpr ⟨j, hmem, hfound⟩)

/-- The header of an accepted file declares every struct before it is used just if the elements of the
    arrays in its structs are met first. -/
theorem header_declares_before_use_iff {root ast : AstFile} {loaded packages : Packages}
    (haccepted : validateSemantics root loaded = .ok (ast, packages)) {name : Bytes}
    {original file : AstFile} (horiginal : (gathered root loaded).find name = some original)
    (hfile : packages.find name = some file) :
    declaredBeforeUse file.packageName [] (generateHeader file) = true ↔ ElementsMetFirst original := by
  obtain ⟨earlier, before, hbefore, hearlier, _, hyields, _⟩ :=
    (validateSemantics_checks haccepted).2.2 hfile
  rw [horiginal] at hbefore
  cases hbefore
  rw [← earlier.find_packageName hearlier] at hearlier
  exact declaredBeforeUse_iff hearlier hyields

namespace ArrayFile

def shapes : Ident := ⟨ascii "shapes", by decide⟩

def point : StructDef := ⟨⟨ascii "Point", by decide⟩, [⟨.prim .int32, ⟨ascii "x", by decide⟩⟩]⟩

/-- A struct with an array of points. -/
def outline : StructDef :=
  ⟨⟨ascii "Outline", by decide⟩,
    [⟨.array (.custom .empty point.name), ⟨ascii "points", by decide⟩⟩]⟩

/-- A file with the given structs. -/
def fileOf (structs : List StructDef) : AstFile where
  packageName := shapes
  filePath := ascii "shapes.bidl"
  importedPackages := []
  structs := structs
  topics := []
  services := []
  importsBeforeDeclarations := true
  packageBeforeImportsAndDeclarations := true
  packageDeclarationCount := 1

/-- With the point declared first the header is in order, and the point is met first. -/
theorem header_of_point_first : ∃ ast packages,
    validateSemantics (fileOf [point, outline]) Packages.empty = .ok (ast, packages) ∧
      packages.find shapes.val = some (fileOf [point, outline]) ∧
      ElementsMetFirst (fileOf [point, outline]) := by
  obtain ⟨ast, packages, haccepted, hfile⟩ : ∃ ast packages,
      validateSemantics (fileOf [point, outline]) Packages.empty = .ok (ast, packages) ∧
        packages.find shapes.val = some (fileOf [point, outline]) := exists_accepted (by decide +kernel)
  refine ⟨ast, packages, haccepted, hfile, ?_⟩
  exact (header_declares_before_use_iff haccepted
    (show (gathered (fileOf [point, outline]) Packages.empty).find shapes.val =
      some (fileOf [point, outline]) by decide +kernel) hfile).mp (by decide +kernel)

/-- With the point declared last the file is accepted, and the outline stays before the point. -/
theorem header_of_outline_first : ∃ ast packages,
    validateSemantics (fileOf [outline, point]) Packages.empty = .ok (ast, packages) ∧
      packages.find shapes.val = some (fileOf [outline, point]) ∧
      declaredBeforeUse shapes [] (generateHeader (fileOf [outline, point])) = false :=
  exists_accepted (by decide +kernel)

end ArrayFile

end OmniBinder.Idl
