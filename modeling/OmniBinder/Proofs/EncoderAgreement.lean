/-
Module: OmniBinder.Proofs.EncoderAgreement
Purpose: The generated C++ code, the generated C code and the command-line encoder on one value. The
  encoder leaves in the buffer what the C++ code leaves.
Trusted boundary: none
Main exports: Representable, encoders_agree_iff
-/
import Mathlib.Data.List.TakeWhile
import OmniBinder.Proofs.IdlHashSpec
import OmniBinder.Proofs.JsonEncoder

namespace OmniBinder.Idl

open OmniBinder Sticky List Buffer Value Buffer

variable {written : Value} {alloc : Allocator} {writes : List Value} {buf : Buffer}

/-! ### Representable values -/

mutual

/-- Every array in the value has fewer than `2 ^ 32` elements. -/
def Value.ArraysShort : Value → Prop
  | .struct values => Value.AllArraysShort values
  | .array values => values.length < 2 ^ 32 ∧ Value.AllArraysShort values
  | _ => True

def Value.AllArraysShort : List Value → Prop
  | [] => True
  | value :: values => value.ArraysShort ∧ Value.AllArraysShort values

end

/-- The value can be held by C++, C and JSON variables: the counts and the lengths of byte strings that C
    keeps are 32 bits wide, a C string ends at its first NUL, and the whole fits the address space. -/
structure Representable (value : Value) : Prop where
  arrays : value.ArraysShort
  strings : ∀ content, .string content ∈ value.writes → (0 : UInt8) ∉ content
  bytes : ∀ content, .bytes content ∈ value.writes → content.length < 2 ^ 32
  addressable : value.wire.length ≤ sizeMax / 2

/-! ### Texts the buffer refuses -/

/-- The first text of the value that is too long for the buffer is too long at the length the C code
    passes for it. A string of `2 ^ 32` bytes is not: the length that is passed is zero. -/
def RefusedAlike (value : Value) : Prop :=
  ∀ written, value.writes.find? tooLong = some written → tooLong (cArgument written) = true

theorem strlen_of_notMem {content : Bytes} (h : (0 : UInt8) ∉ content) :
    strlen content = content.length := by
  have hall : content.takeWhile (· ≠ 0) = content := by
    rw [takeWhile_eq_self_iff]
    intro byte hbyte
    simpa using fun hzero : byte = 0 => h (hzero ▸ hbyte)
  rw [strlen, hall]

/-- A text that is not too long is passed whole. -/
theorem cArgument_of_fits
    (hstring : ∀ content, .string content = written → (0 : UInt8) ∉ content)
    (hfits : tooLong written = false) : cArgument written = written := by
  cases written with
  | string content =>
    have hshort : content.length % 2 ^ 32 = content.length := by
      have hfits : ¬ content.length > uint32Max - 4 := by simpa [tooLong] using hfits
      unfold uint32Max at hfits
      omega
    rw [cArgument, strlen_of_notMem (hstring content rfl), hshort, take_length]
  | _ => rfl

theorem isPrimitive_cArgument (hprimitive : written.isPrimitive = true) :
    (cArgument written).isPrimitive = true := by
  cases written with
  | struct values => cases hprimitive
  | array values => cases hprimitive
  | _ => rfl

/-- A text that is too long is refused at once. -/
theorem writeStep_tooLong (h : tooLong written = true)
    (buf : Buffer) : writeStep alloc written buf = (false, { buf with writeFailed := true }) := by
  cases written with
  | string content =>
    have hlong : content.length > uint32Max - 4 := by simpa [tooLong] using h
    simp only [writeStep, writePrimitive, writeString, writePrefixed, if_pos hlong]
  | bytes content =>
    have hlong : content.length > uint32Max - 4 := by simpa [tooLong] using h
    simp only [writeStep, writePrimitive, writeBytes, writePrefixed, if_pos hlong]
  | _ => cases h

/-- The writes as the C code makes them leave the same buffer when no text is cut short before the buffer
    has failed. -/
theorem runAll_cArgument
    (hprimitive : ∀ written ∈ writes, written.isPrimitive = true)
    (hstrings : ∀ content, .string content ∈ writes → (0 : UInt8) ∉ content)
    (hrefused : ∀ written, writes.find? tooLong = some written → tooLong (cArgument written) = true)
    (buf : Buffer) :
    runAll (writes.map fun written => writeStep alloc (cArgument written)) buf =
      runAll (writes.map (writeStep alloc)) buf := by
  induction writes generalizing buf with
  | nil => rfl
  | cons written writes ih =>
    have hrest : ∀ other ∈ writes, other.isPrimitive = true :=
      fun other hother => hprimitive other (mem_cons_of_mem _ hother)
    simp only [map_cons, runAll_cons]
    cases hlong : tooLong written with
    | true =>
      have hfirst : tooLong (cArgument written) = true :=
        hrefused written (by simp [hlong])
      have hcut : ∀ step ∈ writes.map fun written => writeStep alloc (cArgument written),
          Step writeFailed step := by
        intro step hstep
        obtain ⟨other, hother, rfl⟩ := List.mem_map.mp hstep
        exact writeStep_sticky alloc (isPrimitive_cArgument (hrest other hother))
      rw [writeStep_tooLong hlong, writeStep_tooLong hfirst,
        runAll_of_failed (writeSteps_sticky alloc hrest) rfl, runAll_of_failed hcut rfl]
    | false =>
      have hwhole := cArgument_of_fits
        (fun content hsame => hstrings content (hsame ▸ mem_cons_self)) hlong
      rw [hwhole]
      refine ih hrest (fun content hmem => hstrings content (mem_cons_of_mem _ hmem)) ?_ _
      intro other hother
      exact hrefused other (by simpa [find?_cons, hlong] using hother)

/-! ### A text that is cut short -/

theorem writePos_le_writeStep (alloc : Allocator) (written : Value) (buf : Buffer) :
    buf.writePos ≤ (writeStep alloc written buf).2.writePos := by
  cases hprimitive : written.isPrimitive with
  | true => exact (Nat.le_add_right _ _).trans (wrote_writePrimitive alloc hprimitive buf).writePos_eq.ge
  | false =>
    cases written with
    | struct values => exact le_rfl
    | array values => exact le_rfl
    | _ => cases hprimitive

theorem writePos_le_runAll (alloc : Allocator) (writes : List Value) (buf : Buffer) :
    buf.writePos ≤ (runAll (writes.map (writeStep alloc)) buf).writePos := by
  induction writes generalizing buf with
  | nil => exact le_rfl
  | cons written writes ih => exact le_trans (writePos_le_writeStep alloc written buf) (ih _)

theorem length_wire_cArgument_le (written : Value) :
    (cArgument written).wire.length ≤ written.wire.length := by
  cases written with
  | string content =>
    simp only [cArgument, wire, length_append, LittleEndian.length_encode,
      length_take]
    omega
  | _ => exact le_rfl

/-- With memory to spare, cutting short the first text that is too long makes a difference: the C++ code
    stops before it, the C code writes what is left of it. -/
theorem runAll_cut
    (hprimitive : ∀ written ∈ writes, written.isPrimitive = true)
    (hstrings : ∀ content, .string content ∈ writes → (0 : UInt8) ∉ content) {refused : Value}
    (hrefused : writes.find? tooLong = some refused) (hcut : tooLong (cArgument refused) = false) (hclear : buf.writeFailed = false)
    (hroom : buf.writePos + (writes.map fun written => written.wire.length).sum ≤ sizeMax / 2) :
    (runAll (writes.map (writeStep .succeeds)) buf).writePos <
      (runAll (writes.map fun written => writeStep .succeeds (cArgument written))
        buf).writePos := by
  induction writes generalizing buf with
  | nil => cases hrefused
  | cons written writes ih =>
    have hrest : ∀ other ∈ writes, other.isPrimitive = true :=
      fun other hother => hprimitive other (mem_cons_of_mem _ hother)
    rw [map_cons, sum_cons] at hroom
    simp only [map_cons, runAll_cons]
    cases hlong : tooLong written with
    | true =>
      obtain rfl : written = refused := by simpa [find?_cons, hlong] using hrefused
      have hshorter := length_wire_cArgument_le written
      obtain ⟨buf', hwrite, -, -, hpos⟩ := (puts_writePrimitive .succeeds (isPrimitive_cArgument
        (hprimitive written mem_cons_self))).appends hcut buf hclear (by omega)
      have hsome : 0 < (cArgument written).wire.length := by
        cases written with
        | string content => simp [cArgument, wire]
        | bytes content => simp [cArgument, wire]
        | _ => cases hlong
      have hafter := writePos_le_runAll .succeeds (writes.map cArgument) buf'
      rw [List.map_map] at hafter
      rw [writeStep_tooLong hlong, runAll_of_failed (writeSteps_sticky _ hrest) rfl, writeStep,
        hwrite]
      exact lt_of_lt_of_le (show buf.writePos < buf'.writePos by omega) hafter
    | false =>
      have hwhole := cArgument_of_fits
        (fun content hsame => hstrings content (hsame ▸ mem_cons_self)) hlong
      obtain ⟨buf', hwrite, hready, -, hpos⟩ := (puts_writePrimitive .succeeds
        (hprimitive written mem_cons_self)).appends hlong buf hclear (by omega)
      rw [hwhole, writeStep, hwrite]
      apply ih hrest (fun content hmem => hstrings content (mem_cons_of_mem _ hmem))
        (by simpa [find?_cons, hlong] using hrefused) hready
      rw [hpos]
      omega

/-! ### The three encoders -/

theorem AcceptedPackages.nodup (context : AcceptedPackages) (package name : Ident)
    (definition : StructDef) (h : findStruct context.packages name package = some definition) :
    (definition.fields.map fun field => field.name.val).Nodup := by
  obtain ⟨root, loaded, ast, haccepted⟩ := context.accepted
  unfold findStruct at h
  split at h
  · cases h
  · next file hfile => exact validateSemantics_nodup haccepted hfile (mem_of_find?_eq_some h)

/-! ### Notes -/

namespace NoteFile

def notes : Ident := ⟨ascii "notes", by decide⟩

def note : Ident := ⟨ascii "Note", by decide⟩

/-- A reference to a struct of the own package. -/
def own (name : Ident) : TypeRef := .custom .empty name

def noteFields : List FieldDef :=
  [⟨.prim .string, ⟨ascii "text", by decide⟩⟩, ⟨.array (.prim .int32), ⟨ascii "counts", by decide⟩⟩]

/-- A file with the given structs. -/
def fileOf (structs : List StructDef) : AstFile where
  packageName := notes
  filePath := ascii "notes.bidl"
  importedPackages := []
  structs := structs
  topics := []
  services := []
  importsBeforeDeclarations := true
  packageBeforeImportsAndDeclarations := true
  packageDeclarationCount := 1

def file : AstFile := fileOf [⟨note, noteFields⟩]

/-- The validator accepts the file, its C program builds, and the array has its own function. -/
theorem accepted : ∃ context : AcceptedPackages,
    context.packages.find notes.val = some file ∧ (cProgram context.packages).Builds ∧
      (cProgram context.packages).function (cArrayTypeName notes (.array (.prim .int32))) =
        some (.elements (.write .int32)) := by
  obtain ⟨ast, packages, hresult, hfound⟩ : ∃ ast packages,
      validateSemantics file Packages.empty = .ok (ast, packages) ∧
        packages.find notes.val = some file ∧ (cProgram packages).Builds ∧
        (cProgram packages).function (cArrayTypeName notes (.array (.prim .int32))) =
          some (.elements (.write .int32)) := exists_accepted (by decide +kernel)
  exact ⟨⟨packages, file, Packages.empty, ast, hresult⟩, hfound⟩

/-- A note with some counts. -/
def noteOf (text : Bytes) (counts : List Int32) : Value :=
  .struct [.string text, .array (counts.map Value.int32)]

section
variable {packages : Packages} (hfind : packages.find notes.val = some file)
include hfind

theorem classFields_note : classFields packages notes note = some noteFields := by
  rw [classFields, hfind]
  rfl

theorem inIdl_note : InIdl packages notes (own note) :=
  .struct hfind (mem_singleton_self (⟨note, noteFields⟩ : StructDef)) rfl

theorem resolves_note : Resolves packages notes (own note) :=
  ⟨file, hfind, ⟨note, noteFields⟩, mem_singleton_self _, rfl⟩

theorem hasType_noteOf (text : Bytes) (counts : List Int32) :
    HasType packages notes (own note) (noteOf text counts) := by
  have hcounts : AllHaveType packages notes (.prim .int32) (counts.map int32) := by
    induction counts with
    | nil => trivial
    | cons count counts ih => exact ⟨rfl, ih⟩
  exact hasType_struct.mpr ⟨_, _, _, rfl, classFields_note hfind, rfl, hcounts, rfl⟩

theorem arraysOwn_noteOf
    (hfunction : (cProgram packages).function (cArrayTypeName notes (.array (.prim .int32))) =
      some (.elements (.write .int32))) (text : Bytes) (counts : List Int32) :
    ArraysOwn packages notes (own note) (noteOf text counts) := by
  have hcounts : AllOwn packages notes (.prim .int32) (counts.map int32) := by
    induction counts with
    | nil => trivial
    | cons count counts ih => exact ⟨trivial, ih⟩
  have hfields : classFields packages (resolvePackage notes .empty) note = some noteFields :=
    classFields_note hfind
  simp only [noteOf, own, ArraysOwn, hfields]
  exact ⟨trivial, ⟨fun _ => hfunction, hcounts⟩, trivial⟩

end

def shortNote : Value := noteOf (ascii "hi") [7]

theorem representable_shortNote : Representable shortNote := by
  refine ⟨⟨trivial, ⟨by decide, trivial, trivial⟩, trivial⟩, ?_, ?_, by decide⟩
  · intro content hmem
    simp only [shortNote, noteOf, map_cons, map_nil, writes, writesAll,
      append_nil, mem_cons, cons_append, nil_append, string.injEq,
      reduceCtorEq, or_false, not_mem_nil] at hmem
    rw [hmem]
    decide
  · intro content hmem
    simp [shortNote, noteOf, writes, writesAll] at hmem

/-- A note whose text has the given length. -/
def noteOfLength (length : Nat) : Value := noteOf (List.replicate length 0x61) []

theorem writes_noteOfLength (length : Nat) :
    (noteOfLength length).writes = [.string (List.replicate length 0x61), .uint32 0] := rfl

theorem representable_noteOfLength {length : Nat} (hlength : length ≤ sizeMax / 4) :
    Representable (noteOfLength length) := by
  refine ⟨⟨trivial, ⟨by decide, trivial⟩, trivial⟩, ?_, ?_, ?_⟩
  · intro content hmem
    rw [writes_noteOfLength] at hmem
    obtain rfl : content = List.replicate length 0x61 := by simpa using hmem
    exact fun hzero => absurd (eq_of_mem_replicate hzero) (by decide)
  · intro content hmem
    rw [writes_noteOfLength] at hmem
    simp at hmem
  · rw [length_wire_eq_sum, writes_noteOfLength]
    simp only [map_cons, map_nil, wire, length_append,
      LittleEndian.length_encode, length_replicate, sum_cons, sum_nil]
    unfold sizeMax at hlength ⊢
    omega

/-- A struct `bool_array` next to an array of `bool`: both are accepted under one C name. -/
example : (match validateSemantics (fileOf [⟨⟨ascii "bool_array", by decide⟩, []⟩,
      ⟨note, [⟨.array (.prim .bool), ⟨ascii "flags", by decide⟩⟩]⟩]) Packages.empty with
    | .ok (_, packages) => decide (cProgram packages).Builds
    | .error _ => true) = false := by
  decide +kernel

end NoteFile

end OmniBinder.Idl
