/-
Module: OmniBinder.Proofs.ImportGraph
Purpose: What a run of the parser loads. The files that were parsed to their end form a list in which a
  file comes after the files it imports, and the context tells the package and the tree of each.
Trusted boundary: none
Main exports: FileSystem.astAt, imports_loaded
-/
import Mathlib.Logic.Relation
import OmniBinder.Proofs.ParserProgress
import OmniBinder.Proofs.ValidatorSpec

namespace OmniBinder.Idl

open OmniBinder List ParseContext FileSystem Statement FileProgress

/-! ### The contents of files -/

def Statement.packageName? : Statement → Option Ident
  | .package name => some name
  | _ => none

def Statement.importPath? : Statement → Option Bytes
  | .import path => some path
  | _ => none

def Statement.struct? : Statement → Option StructDef
  | .struct definition => some definition
  | _ => none

def Statement.topic? : Statement → Option TopicDef
  | .topic definition => some definition
  | _ => none

def Statement.service? : Statement → Option ServiceDef
  | .service definition => some definition
  | _ => none

/-- A statement of a file. -/
def FileProgress.add (packageOf : Bytes → Ident) (file : FileProgress) : Statement → FileProgress
  | .package name => file.addPackage name
  | .import path => file.addImport path (packageOf path)
  | .struct definition => file.addStruct definition
  | .topic definition => file.addTopic definition
  | .service definition => file.addService definition

namespace FileSystem

/-- The statements of the file behind a path. -/
def statementsAt (files : FileSystem) (path : Bytes) : List Statement :=
  match files.open path with
  | some source => (syntaxOf source).statements
  | none => []

def importsAt (files : FileSystem) (path : Bytes) : List Bytes :=
  (files.statementsAt path).filterMap Statement.importPath?

/-- The package of the file behind a path: the last one it declares, or none. -/
def packageAt (files : FileSystem) (path : Bytes) : Ident :=
  (files.statementsAt path).foldl (fun name statement => statement.packageName?.getD name) .empty

/-- The packages that the imports of a file lead to. -/
def importedAt (files : FileSystem) (path importPath : Bytes) : Ident :=
  files.packageAt (resolvePath path importPath)

/-- The tree of the file behind a path. -/
def astAt (files : FileSystem) (path : Bytes) : AstFile :=
  ((files.statementsAt path).foldl (FileProgress.add (files.importedAt path))
    (FileProgress.start path)).ast

/-- A path leads to another by an import. -/
def Imports (files : FileSystem) (path path' : Bytes) : Prop :=
  ∃ importPath ∈ files.importsAt path, path' = resolvePath path importPath

/-- An import of a file leads to the same file under all paths of the importing one. -/
def Consistent (files : FileSystem) : Prop :=
  ∀ path path' importPath, files.realpath path = files.realpath path' →
    files.realpath (resolvePath path importPath) = files.realpath (resolvePath path' importPath)

end FileSystem

/-- What the statements add to a file. -/
theorem add_ast (packageOf : Bytes → Ident) (statements : List Statement) (file : FileProgress) :
    let ast := (statements.foldl (add packageOf) file).ast
    ast.filePath = file.ast.filePath ∧
      ast.packageName =
        statements.foldl (fun name statement => statement.packageName?.getD name) file.ast.packageName ∧
      ast.imports = file.ast.imports ++ statements.filterMap importPath? ∧
      ast.importedPackages =
        file.ast.importedPackages ++ (statements.filterMap importPath?).map packageOf ∧
      ast.structs = file.ast.structs ++ statements.filterMap struct? ∧
      ast.topics = file.ast.topics ++ statements.filterMap topic? ∧
      ast.services = file.ast.services ++ statements.filterMap service? := by
  induction statements generalizing file with
  | nil => simp
  | cons statement statements ih =>
    obtain ⟨hpath, hname, himports, hpackages, hstructs, htopics, hservices⟩ :=
      ih (file.add packageOf statement)
    cases statement with
    | package name => exact ⟨hpath, hname, himports, hpackages, hstructs, htopics, hservices⟩
    | «import» path =>
      exact ⟨hpath, hname, himports.trans (append_assoc ..),
        hpackages.trans (append_assoc ..), hstructs, htopics, hservices⟩
    | struct definition =>
      exact ⟨hpath, hname, himports, hpackages, hstructs.trans (append_assoc ..), htopics,
        hservices⟩
    | topic definition =>
      exact ⟨hpath, hname, himports, hpackages, hstructs, htopics.trans (append_assoc ..),
        hservices⟩
    | service definition =>
      exact ⟨hpath, hname, himports, hpackages, hstructs, htopics,
        hservices.trans (append_assoc ..)⟩

section
variable {files : FileSystem} {path path' source : Bytes}

theorem FileSystem.nonempty_of_open (h : files.open path = some source) : path.isEmpty = false := by
  unfold FileSystem.open at h
  split_ifs at h with hpath
  exact Bool.not_eq_true _ ▸ hpath

theorem resolvePath_nonempty (path importPath : Bytes) :
    (resolvePath path importPath).isEmpty = false := by
  unfold resolvePath isAbsolutePath
  split_ifs with h
  · cases importPath with
    | nil => cases h
    | cons _ _ => rfl
  · simp [ascii]

section
variable (hpath : path.isEmpty = false) (hpath' : path'.isEmpty = false)
  (hsame : files.realpath path = files.realpath path')
include hpath hpath' hsame

theorem FileSystem.statementsAt_congr : files.statementsAt path' = files.statementsAt path := by
  rw [statementsAt, statementsAt, FileSystem.open, FileSystem.open, hpath, hpath', hsame]

theorem FileSystem.packageAt_congr : files.packageAt path' = files.packageAt path := by
  rw [packageAt, packageAt, statementsAt_congr hpath hpath' hsame]

end

end

/-! ### Files in the order of their imports -/

/-- The file behind a path is in the list, under some path. -/
def Listed (files : FileSystem) (done : List Bytes) (path : Bytes) : Prop :=
  ∃ other ∈ done, files.realpath other = files.realpath path

theorem Listed.mono {files : FileSystem} {done later : List Bytes} {path : Bytes} (hsub : done ⊆ later) :
    Listed files done path → Listed files later path :=
  fun ⟨other, hother, hreal⟩ => ⟨other, hsub hother, hreal⟩

/-- Each file of the list is there once and comes after the files it imports. -/
inductive Ordered (files : FileSystem) : List Bytes → Prop where
  | nil : Ordered files []
  | concat {done : List Bytes} {path : Bytes} : Ordered files done →
      (∀ other ∈ done, files.realpath other ≠ files.realpath path) →
      (∀ importPath ∈ files.importsAt path, Listed files done (resolvePath path importPath)) →
      Ordered files (done ++ [path])

section
variable {files : FileSystem} {done : List Bytes}

/-- What a file of the list leads to is in the list, and is never the file itself. -/
theorem Ordered.reaches (h : Ordered files done) (hconsistent : files.Consistent)
    (hnames : ∀ path ∈ done, path.isEmpty = false) {path listed target : Bytes}
    (hlisted : listed ∈ done) (hsame : files.realpath listed = files.realpath path)
    (hpath : path.isEmpty = false) (hleads : Relation.TransGen files.Imports path target) :
    Listed files done target ∧ files.realpath target ≠ files.realpath path := by
  induction h generalizing path listed with
  | nil => cases hlisted
  | @concat done last _ hapart himports ih =>
    have hnames' := fun path hmem => hnames path (mem_append_left _ hmem)
    rcases mem_append.mp hlisted with hmem | hmem
    · exact (ih hnames' hmem hsame hpath hleads).imp_left (.mono (subset_append_left _ _))
    obtain rfl := mem_singleton.mp hmem
    obtain ⟨next, ⟨importPath, hmem, rfl⟩, hrest⟩ := Relation.TransGen.head'_iff.mp hleads
    -- the first import of the way leads to a file before the last one
    have hmem : importPath ∈ files.importsAt listed := by
      rw [importsAt, ← statementsAt_congr (hnames listed hlisted) hpath hsame]
      exact hmem
    obtain ⟨other, hother, hresolved⟩ := himports importPath hmem
    have hnext := hresolved.trans (hconsistent listed path importPath hsame)
    have hfound : Listed files done target := by
      rcases Relation.reflTransGen_iff_eq_or_transGen.mp hrest with rfl | hrest
      · exact ⟨other, hother, hnext⟩
      · exact (ih hnames' hother hnext (resolvePath_nonempty _ _) hrest).1
    refine ⟨hfound.mono (subset_append_left _ _), fun hcycle => ?_⟩
    obtain ⟨other, hother, htarget⟩ := hfound
    exact hapart other hother (htarget.trans (hcycle.trans hsame.symm))

end

/-! ### The context during a run -/

/-- Whatever happens, a file is opened once, few are, and only those that were opened are parsed. -/
structure Bounded (root : Bytes) (context : ParseContext) : Prop where
  once : (root :: context.opened).Nodup
  few : context.opened.length ≤ idlcMaxImportFiles
  parsed : context.allFiles.Sublist context.opened

/-- The file was read to its end, and is stored under its package. -/
def Finished (files : FileSystem) (context : ParseContext) (path : Bytes) : Prop :=
  (∃ source, files.open path = some source ∧ (syntaxOf source).error = none) ∧
    ((files.packageAt path).val.isEmpty = false →
      context.loadedPackages.find (files.packageAt path).val = some (files.astAt path))

/-- The context while the files of `busy` are being parsed and those of `done` have been. -/
structure Ledger (files : FileSystem) (root : Bytes) (busy : Bytes → Prop) (context : ParseContext)
    (done : List Bytes) : Prop where
  processing : ∀ name, context.processingFiles.contains name = true ↔ busy name
  known : ∀ name package, context.fileToPackage[name]? = some package ↔
    ∃ path ∈ done, files.realpath path = name ∧ files.packageAt path = package
  finished : ∀ path ∈ done, Finished files context path
  ordered : Ordered files done
  apart : ∀ path ∈ done, ¬ busy (files.realpath path)
  opened : ∀ name ∈ context.opened, busy name ∨ ∃ path ∈ done, files.realpath path = name
  count : context.importFileCount = context.opened.length
  bounded : Bounded root context
  root : busy root

/-- What is left when a file was parsed. -/
structure FileDone (files : FileSystem) (root : Bytes) (busy : Bytes → Prop) (path : Bytes)
    (context : ParseContext) (done : List Bytes) (ast : AstFile) : Prop where
  ledger : Ledger files root busy context done
  finished : Finished files context path
  imported : ∀ importPath ∈ files.importsAt path, Listed files done (resolvePath path importPath)
  ast_eq : ast = files.astAt path

/-- A failure leaves the context in bounds, and a result what is said of it. -/
def Ends {α : Type} (root : Bytes) (holds : α → ParseContext → Prop) : Parsed α → Prop
  | (.error _, last) => Bounded root last
  | (.ok value, last) => holds value last

/-- A parser adds its file, or fails with the context in bounds. -/
def ParsesFiles (files : FileSystem) (root : Bytes)
    (parse : Bytes → Bytes → ParseContext → Parsed AstFile) : Prop :=
  ∀ busy path source context done, files.open path = some source → busy (files.realpath path) →
    (∀ total, Ledger files root busy
      (ParseContext.enter { context with totalSourceBytes := total } files path) done) →
    Ends root (fun ast last => ∃ left added, last = left.leave files path ∧
      FileDone files root busy path left (done ++ added) ast) (parse path source context)

section
variable {files : FileSystem} {root path source : Bytes} {busy : Bytes → Prop}
  {context : ParseContext} {done : List Bytes}

theorem astAt_package (files : FileSystem) (path : Bytes) :
    (files.astAt path).packageName = files.packageAt path ∧ (files.astAt path).filePath = path := by
  have hast := add_ast (files.importedAt path) (files.statementsAt path) (start path)
  exact ⟨hast.2.1, hast.1⟩

/-- Two files under one package are one. -/
theorem Finished.unique {path' : Bytes} (h : Finished files context path)
    (h' : Finished files context path') (hpackage : (files.packageAt path).val.isEmpty = false)
    (hsame : files.packageAt path' = files.packageAt path) : path' = path := by
  have hstored := h'.2 (hsame ▸ hpackage)
  rw [hsame, h.2 hpackage] at hstored
  rw [← (astAt_package files path).2, Option.some.inj hstored, (astAt_package files path').2]

theorem Finished.nonempty (h : Finished files context path) : path.isEmpty = false := by
  obtain ⟨⟨source, hopen, -⟩, -⟩ := h
  exact nonempty_of_open hopen

section
variable (h : Ledger files root busy context done)
include h

/-- A file that is neither known nor being parsed is new. -/
theorem Ledger.fresh {name : Bytes} (hunknown : context.fileToPackage[name]? = none)
    (hidle : context.processingFiles.contains name = false) :
    ¬ busy name ∧ (∀ path ∈ done, files.realpath path ≠ name) ∧ name ∉ root :: context.opened := by
  have hbusy : ¬ busy name := fun hbusy => by
    rw [(h.processing name).mpr hbusy] at hidle
    cases hidle
  have hdone : ∀ path ∈ done, files.realpath path ≠ name := fun path hpath hname => by
    rw [(h.known name _).mpr ⟨path, hpath, hname, rfl⟩] at hunknown
    cases hunknown
  refine ⟨hbusy, hdone, fun hmem => ?_⟩
  rcases mem_cons.mp hmem with rfl | hmem
  · exact hbusy h.root
  · rcases h.opened name hmem with hname | ⟨path, hpath, hname⟩
    · exact hbusy hname
    · exact hdone path hpath hname

/-- A new file is opened. -/
theorem Ledger.opens {name : Bytes}
    (hunknown : context.fileToPackage[name]? = none)
    (hidle : context.processingFiles.contains name = false)
    (hfew : context.importFileCount < idlcMaxImportFiles) :
    Bounded root { context with opened := context.opened ++ [name] } := by
  obtain ⟨-, -, hnew⟩ := h.fresh hunknown hidle
  refine ⟨?_, ?_, h.bounded.parsed.trans (sublist_append_left ..)⟩
  · rw [← cons_append]
    refine nodup_append.mpr ⟨h.bounded.once, by simp, fun other hother last hlast heq => ?_⟩
    exact hnew (mem_singleton.mp hlast ▸ heq ▸ hother)
  · rw [length_append, ← h.count]
    exact hfew

/-- And entered. -/
theorem Ledger.enter (hpath : path.isEmpty = false)
    (hunknown : context.fileToPackage[files.realpath path]? = none)
    (hidle : context.processingFiles.contains (files.realpath path) = false)
    (hfew : context.importFileCount < idlcMaxImportFiles) {parsed : List Bytes}
    (hparsed : parsed.Sublist (context.opened ++ [files.realpath path])) (total : Nat) :
    Ledger files root (fun name => name = files.realpath path ∨ busy name)
      (ParseContext.enter { context with
        opened := context.opened ++ [files.realpath path]
        importFileCount := context.importFileCount + 1
        allFiles := parsed
        totalSourceBytes := total } files path) done := by
  obtain ⟨-, hdone, -⟩ := h.fresh hunknown hidle
  have hbounded := h.opens hunknown hidle hfew
  rw [ParseContext.enter, hpath, if_neg Bool.false_ne_true]
  refine ⟨fun name => ?_, h.known, h.finished, h.ordered, fun other hother => ?_, fun name hname => ?_,
    ?_, ⟨hbounded.once, hbounded.few, hparsed⟩, .inr h.root⟩
  · rw [← h.processing name, Std.TreeMap.contains_insert, Bool.or_eq_true, beq_iff_eq,
      Std.LawfulEqCmp.compare_eq_iff_eq, eq_comm]
  · exact not_or.mpr ⟨hdone other hother, h.apart other hother⟩
  · rcases mem_append.mp hname with hname | hname
    · exact (h.opened name hname).imp_left .inr
    · exact .inl (.inl (mem_singleton.mp hname))
  · rw [length_append, h.count]
    rfl

end

/-- The parsed file is left, and its package recorded. -/
theorem FileDone.record {left : ParseContext} {ast : AstFile}
    (h : FileDone files root (fun name => name = files.realpath path ∨ busy name) path left done ast)
    (hpath : path.isEmpty = false) (hidle : ¬ busy (files.realpath path)) (hroot : busy root) :
    Ledger files root busy { left.leave files path with
      fileToPackage := (left.leave files path).fileToPackage.insert (files.realpath path)
        ast.packageName } (done ++ [path]) := by
  have hapart := fun other hother => not_or.mp (h.ledger.apart other hother)
  rw [leave, hpath, if_neg Bool.false_ne_true, h.ast_eq, (astAt_package files path).1]
  refine ⟨fun name => ?_, fun name package => ?_, fun other hother => ?_,
    .concat h.ledger.ordered (fun other hother => (hapart other hother).1) h.imported,
    fun other hother => ?_, fun name hname => ?_, h.ledger.count, { h.ledger.bounded with }, hroot⟩
  · rw [Std.TreeMap.contains_erase, Bool.and_eq_true, h.ledger.processing name, bne_iff_ne, ne_eq,
      Std.LawfulEqCmp.compare_eq_iff_eq]
    exact ⟨fun hname => hname.2.resolve_left (Ne.symm hname.1), fun hname =>
      ⟨fun hsame => hidle (hsame ▸ hname), .inr hname⟩⟩
  · rw [Table.getElem?_insert]
    split_ifs with hname
    · subst hname
      refine ⟨fun hsame => ⟨path, by simp, rfl, Option.some.inj hsame⟩, ?_⟩
      rintro ⟨other, hother, hreal, rfl⟩
      rcases mem_append.mp hother with hother | hother
      · exact absurd hreal (hapart other hother).1
      · rw [mem_singleton.mp hother]
    · refine (h.ledger.known name package).trans ⟨?_, ?_⟩
      · exact fun ⟨other, hother, hreal⟩ => ⟨other, mem_append_left _ hother, hreal⟩
      · rintro ⟨other, hother, hreal, hpackage⟩
        rcases mem_append.mp hother with hother | hother
        · exact ⟨other, hother, hreal, hpackage⟩
        · exact absurd (mem_singleton.mp hother ▸ hreal) hname
  · rcases mem_append.mp hother with hother | hother
    · exact h.ledger.finished other hother
    · exact mem_singleton.mp hother ▸ h.finished
  · rcases mem_append.mp hother with hother | hother
    · exact (hapart other hother).2
    · exact mem_singleton.mp hother ▸ hidle
  · rcases h.ledger.opened name hname with (rfl | hbusy) | ⟨other, hother, hreal⟩
    · exact .inr ⟨path, by simp, rfl⟩
    · exact .inl hbusy
    · exact .inr ⟨other, mem_append_left _ hother, hreal⟩

/-! ### The functions of the parser -/

variable {parse : Option (Bytes → Bytes → ParseContext → Parsed AstFile)}

theorem loadImport_spec {next : Bytes → Bytes → ParseContext → Parsed AstFile}
    (hparse : ParsesFiles files root next) (h : Ledger files root busy context done) {resolved : Bytes}
    (hresolved : resolved.isEmpty = false)
    (hunknown : context.fileToPackage[files.realpath resolved]? = none)
    (hidle : context.processingFiles.contains (files.realpath resolved) = false)
    (hfew : context.importFileCount < idlcMaxImportFiles) :
    Ends root (fun package last => package = files.packageAt resolved ∧
        ∃ added, Ledger files root busy last (done ++ added) ∧ Listed files (done ++ added) resolved)
      (loadImport files next path resolved context) := by
  -- a file that cannot be read counts as opened
  have hopened := h.opens hunknown hidle hfew
  unfold loadImport
  simp only
  cases hopen : files.open resolved with
  | none => exact hopened
  | some source =>
    simp only
    split_ifs
    · exact hopened
    have hparsed := hparse _ resolved source
      { context with
        opened := context.opened ++ [files.realpath resolved]
        importFileCount := context.importFileCount + 1
        allFiles := context.allFiles ++ [files.realpath resolved] } done hopen (.inl rfl)
      (h.enter hresolved hunknown hidle hfew (h.bounded.parsed.append (List.Sublist.refl _)))
    generalize next resolved source _ = result at hparsed ⊢
    obtain ⟨_ | ast, last⟩ := result
    · exact hparsed
    obtain ⟨left, added, rfl, hdone⟩ := hparsed
    refine ⟨by rw [hdone.ast_eq, (astAt_package files resolved).1], added ++ [resolved], ?_, ?_⟩
    · rw [← append_assoc]
      exact hdone.record hresolved (h.fresh hunknown hidle).1 h.root
    · exact ⟨resolved, by simp, rfl⟩

theorem parseImport_spec (path : Bytes) (hparse : ∀ next ∈ parse, ParsesFiles files root next)
    (h : Ledger files root busy context done) (importPath : Bytes) :
    Ends root (fun package last => package = files.importedAt path importPath ∧
        ∃ added, Ledger files root busy last (done ++ added) ∧
          Listed files (done ++ added) (resolvePath path importPath))
      (parseImport files parse path importPath context) := by
  have hresolved := resolvePath_nonempty path importPath
  unfold parseImport
  simp only
  cases hknown : context.fileToPackage[files.realpath (resolvePath path importPath)]? with
  | some package =>
    obtain ⟨other, hother, hreal, rfl⟩ := (h.known _ _).mp hknown
    refine ⟨packageAt_congr hresolved (h.finished other hother).nonempty hreal.symm, [], ?_⟩
    rw [append_nil]
    exact ⟨h, other, hother, hreal⟩
  | none =>
    simp only
    cases hidle : context.processingFiles.contains
        (files.realpath (resolvePath path importPath)) with
    | true => exact h.bounded
    | false =>
      simp only [Bool.false_eq_true, if_false]
      cases parse with
      | none => exact h.bounded
      | some next =>
        simp only
        split_ifs with hmany
        · exact h.bounded
        · exact loadImport_spec (hparse next rfl) h hresolved hknown hidle
            (Nat.lt_of_not_le hmany)

theorem parseStatements_spec (path : Bytes) (hparse : ∀ next ∈ parse, ParsesFiles files root next)
    (statements : List Statement) (file : FileProgress) (h : Ledger files root busy context done) :
    Ends root (fun read last => read = statements.foldl (add (files.importedAt path)) file ∧
        ∃ added, Ledger files root busy last (done ++ added) ∧
          ∀ importPath ∈ statements.filterMap importPath?,
            Listed files (done ++ added) (resolvePath path importPath))
      (parseStatements files parse path statements file context) := by
  induction statements generalizing file context done with
  | nil => exact ⟨rfl, [], by rwa [append_nil], by simp⟩
  | cons statement statements ih =>
    cases statement with
    | package name => exact ih _ h
    | struct definition => exact ih _ h
    | topic definition => exact ih _ h
    | service definition => exact ih _ h
    | «import» importPath =>
      have himport := parseImport_spec path hparse h importPath
      rw [parseStatements]
      generalize parseImport files parse path importPath context = result at himport ⊢
      obtain ⟨_ | package, next⟩ := result
      · exact himport
      obtain ⟨rfl, added, hledger, hlisted⟩ := himport
      have hrest := ih (file.addImport importPath (files.importedAt path importPath)) hledger
      simp only
      generalize parseStatements files parse path statements _ next = result at hrest ⊢
      obtain ⟨_ | read, last⟩ := result
      · exact hrest
      obtain ⟨hread, added', hledger', himports⟩ := hrest
      refine ⟨hread, added ++ added', append_assoc done .. ▸ hledger', fun importPath' hmem => ?_⟩
      rw [← append_assoc]
      rcases mem_cons.mp hmem with rfl | hmem
      · exact hlisted.mono (subset_append_left _ _)
      · exact himports importPath' hmem

theorem storePackage_spec (h : Ledger files root busy context done) (hbusy : busy (files.realpath path))
    (hread : ∃ source, files.open path = some source ∧ (syntaxOf source).error = none)
    (himported : ∀ importPath ∈ files.importsAt path, Listed files done (resolvePath path importPath)) :
    Ends root (fun ast last => FileDone files root busy path last done ast)
      (storePackage path (files.astAt path) context) := by
  -- an entry that the file replaces would be one of its own
  have hinsert (hown : ∀ other,
      context.loadedPackages.find (files.packageAt path).val = some other → other.filePath = path) :
      FileDone files root busy path
        { context with loadedPackages := context.loadedPackages.insert (files.astAt path) } done
        (files.astAt path) := by
    have hfind := fun name => Packages.find_insert context.loadedPackages (files.astAt path) name
    rw [(astAt_package files path).1] at hfind
    refine ⟨{ h with finished := fun other hother => ?_, bounded := { h.bounded with } },
      ⟨hread, fun _ => ?_⟩, himported, rfl⟩
    · obtain ⟨hread', hstored⟩ := h.finished other hother
      refine ⟨hread', fun hname => (hfind _).trans ?_⟩
      rw [if_neg fun hsame => ?_]
      · exact hstored hname
      · have hpath := hown (files.astAt other) (hsame ▸ hstored hname)
        rw [(astAt_package files other).2] at hpath
        exact h.apart other hother (hpath ▸ hbusy)
    · exact (hfind _).trans (if_pos rfl)
  unfold storePackage
  rw [(astAt_package files path).1]
  split_ifs with hempty
  · exact ⟨h, ⟨hread, fun hname => absurd (hempty.symm.trans hname) (by decide)⟩, himported, rfl⟩
  cases hfound : context.loadedPackages.find (files.packageAt path).val with
  | none =>
    refine hinsert fun other hother => ?_
    rw [hfound] at hother
    cases hother
  | some other =>
    simp only
    split_ifs with hpath
    · exact h.bounded
    · refine hinsert fun other' hother' => ?_
      rw [hfound] at hother'
      exact Option.some.inj hother' ▸ not_not.mp hpath

theorem parseFile_spec (hparse : ∀ next ∈ parse, ParsesFiles files root next) :
    ParsesFiles files root (parseFile files parse) := by
  intro busy path source context done hopen hbusy h
  have hleave : ∀ {context : ParseContext}, Bounded root context →
      Bounded root (context.leave files path) := by
    intro context hbounded
    unfold leave
    split_ifs
    · exact hbounded
    · exact { hbounded with }
  have hstatements : files.statementsAt path = (syntaxOf source).statements := by
    rw [FileSystem.statementsAt, hopen]
  unfold parseFile
  split_ifs
  · exact hleave (h context.totalSourceBytes).bounded
  simp only
  have hread := parseStatements_spec path hparse (syntaxOf source).statements
    (start path) (h (context.totalSourceBytes + source.length))
  unfold parseBody
  simp only
  generalize parseStatements files parse path _ _ _ = result at hread ⊢
  obtain ⟨_ | file, last⟩ := result
  · exact hleave hread
  obtain ⟨rfl, added, hledger, himports⟩ := hread
  simp only
  cases herror : (syntaxOf source).error with
  | some message => exact hleave hledger.bounded
  | none =>
    have hstored := storePackage_spec hledger hbusy ⟨source, hopen, herror⟩
      (by rwa [importsAt, hstatements])
    rw [astAt, hstatements] at hstored
    simp only
    generalize storePackage path _ last = result at hstored ⊢
    obtain ⟨_ | ast, left⟩ := result
    · exact hleave hstored
    · exact ⟨left, added, rfl, hstored⟩

end

theorem parse_spec (files : FileSystem) (root : Bytes) (depth : Nat) :
    ParsesFiles files root (parse files depth) := by
  induction depth with
  | zero => exact parseFile_spec (by simp)
  | succ depth ih => exact parseFile_spec (by simpa using ih)

/-! ### The whole run -/

/-- The tree tells what the file behind a path declares. -/
structure FileSystem.Describes (files : FileSystem) (path : Bytes) (ast : AstFile) : Prop where
  package : ast.packageName = files.packageAt path
  imports : ast.imports = files.importsAt path
  importedPackages : ast.importedPackages =
    (files.importsAt path).map fun importPath => files.packageAt (resolvePath path importPath)
  structs : ast.structs = (files.statementsAt path).filterMap Statement.struct?
  topics : ast.topics = (files.statementsAt path).filterMap Statement.topic?
  services : ast.services = (files.statementsAt path).filterMap Statement.service?

section
variable {files : FileSystem} {root path : Bytes}

theorem FileSystem.Consistent.describes (h : files.Consistent) {listed : Bytes}
    (hlisted : listed.isEmpty = false) (hpath : path.isEmpty = false)
    (hsame : files.realpath listed = files.realpath path) : files.Describes path (files.astAt listed) := by
  have hstatements := statementsAt_congr hlisted hpath hsame
  have himports : files.importsAt path = files.importsAt listed := by
    rw [importsAt, importsAt, hstatements]
  obtain ⟨-, hname, himports', hpackages, hstructs, htopics, hservices⟩ :=
    add_ast (files.importedAt listed) (files.statementsAt listed) (start listed)
  refine ⟨hname.trans (packageAt_congr hpath hlisted hsame.symm), himports'.trans himports.symm, ?_,
    hstructs.trans (hstatements ▸ rfl), htopics.trans (hstatements ▸ rfl),
    hservices.trans (hstatements ▸ rfl)⟩
  refine hpackages.trans ?_
  rw [himports]
  refine map_congr_left fun importPath _ => ?_
  exact packageAt_congr (resolvePath_nonempty _ _) (resolvePath_nonempty _ _)
    (h path listed importPath hsame.symm)

/-- What a run of the parser leaves: the root behind all other files, or the context in bounds. -/
theorem parseRoot_cases (files : FileSystem) (root : Bytes) :
    (∃ text, (parseRoot files root).1 = .error text ∧
        Bounded (files.realpath root) (parseRoot files root).2) ∨
      ∃ done, (parseRoot files root).1 = .ok (files.astAt root) ∧
        Bounded (files.realpath root) (parseRoot files root).2 ∧ Ordered files (done ++ [root]) ∧
        ∀ path ∈ done ++ [root], Finished files (parseRoot files root).2 path := by
  cases hopen : files.open root with
  | none =>
    rw [parseRoot, hopen]
    exact .inl ⟨_, rfl, by simp [empty], by simp [empty],
      List.Sublist.refl _⟩
  | some source =>
    have hroot := nonempty_of_open hopen
    have hparsed := parse_spec files (files.realpath root) idlcMaxImportDepth
      (· = files.realpath root) root source .empty [] hopen rfl fun total => by
        rw [ParseContext.enter, hroot, if_neg Bool.false_ne_true]
        refine ⟨fun name => ?_, by simp [empty], by simp, .nil, by simp,
          by simp [empty], rfl,
          ⟨by simp [empty], by simp [empty], List.Sublist.refl _⟩, rfl⟩
        rw [Std.TreeMap.contains_insert, empty, Std.TreeMap.contains_emptyc, Bool.or_false,
          beq_iff_eq, Std.LawfulEqCmp.compare_eq_iff_eq, eq_comm]
    have hrun : parseRoot files root = parse files idlcMaxImportDepth root source .empty := by
      rw [parseRoot, hopen]
    rw [hrun]
    generalize parse files idlcMaxImportDepth root source .empty = result at hparsed ⊢
    obtain ⟨text | ast, last⟩ := result
    · exact .inl ⟨text, rfl, hparsed⟩
    obtain ⟨left, done, rfl, hdone⟩ := hparsed
    have hledger := hdone.ledger
    refine .inr ⟨done, congrArg Except.ok hdone.ast_eq, ?_,
      .concat hledger.ordered hledger.apart hdone.imported, fun path hpath => ?_⟩
    · rw [leave, hroot, if_neg Bool.false_ne_true]
      exact { hledger.bounded with }
    · rw [leave, hroot, if_neg Bool.false_ne_true]
      rcases mem_append.mp hpath with hpath | hpath
      · exact hledger.finished path hpath
      · exact mem_singleton.mp hpath ▸ hdone.finished

end

/-- A file without a package. -/
def loneFile : FileSystem :=
  ⟨id, (∅ : Table Bytes Bytes).insert (ascii "r") (ascii "struct S \x7b int32 x; \x7d")⟩

/-- A file with two paths, under which its import leads to two files. -/
def linkedFiles : FileSystem where
  realpath path := if path = ascii "/a/l" ∨ path = ascii "/b/l" then ascii "/x" else path
  contents := (((∅ : Table Bytes Bytes).insert (ascii "/x") (ascii "package x; import \"k\";")).insert
    (ascii "/a/k") (ascii "package k;")).insert (ascii "/b/k") (ascii "import \"/r\";") |>.insert
    (ascii "/r") (ascii "package r; import \"/a/l\"; import \"/b/l\";")

end OmniBinder.Idl
