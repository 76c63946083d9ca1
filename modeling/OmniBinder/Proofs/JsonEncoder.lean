/-
Module: OmniBinder.Proofs.JsonEncoder
Purpose: When a JSON value denotes a value of a type, and what the command-line encoder does with it.
Trusted boundary: none
Main exports: JsonNumber.Is, exists_denotes
-/
import OmniBinder.Idl.TypeCodec
import OmniBinder.Proofs.CNames

namespace OmniBinder.Idl

open OmniBinder Sticky List Value JsonNumber

/-! ### What a JSON value denotes -/

/-- The number is exactly the integer. -/
def JsonNumber.Is : JsonNumber → Int → Prop
  | .int kept, value => kept.toInt = value
  | .uint kept, value => kept.toNat = value
  | .fp kept, value => kept = .finite value

/-- The value under a key of an object. -/
def member (members : List (Bytes × Json)) (key : Bytes) : Option Json :=
  (members.find? fun entry => entry.1 = key).map Prod.snd

/-- The JSON value is a number that is exactly the integer. -/
def IsInteger (json : Json) (value : Int) : Prop := ∃ number, json = .number number ∧ number.Is value

mutual

/-- The JSON value stands for a value of the type. There is none for `bytes`, and for floating-point
    numbers the conversion is left open. -/
def Denotes (packages : Packages) (package : Ident) (type : TypeRef) (json : Json) : Value → Prop
  | .bool value => json = .bool value
  | .int8 value => IsInteger json value.toInt
  | .uint8 value => IsInteger json value.toNat
  | .int16 value => IsInteger json value.toInt
  | .uint16 value => IsInteger json value.toNat
  | .int32 value => IsInteger json value.toInt
  | .uint32 value => IsInteger json value.toNat
  | .int64 value => IsInteger json value.toInt
  | .uint64 value => IsInteger json value.toNat
  | .float32 _ => False
  | .float64 _ => False
  | .string value => json = .string value
  | .bytes _ => False
  | .struct values =>
    match type with
    | .custom given name =>
      match classFields packages (resolvePackage package given) name with
      | some fields =>
        ∃ members, json = .object members ∧
          FieldsDenote packages (resolvePackage package given) members fields values
      | none => False
    | _ => False
  | .array values =>
    match type with
    | .array element => ∃ elements, json = .array elements ∧
        AllDenote packages package element elements values
    | _ => False

/-- The member of every field stands for its value. -/
def FieldsDenote (packages : Packages) (package : Ident) (members : List (Bytes × Json))
    (fields : List FieldDef) : List Value → Prop
  | [] => fields = []
  | value :: values =>
    match fields with
    | field :: fields =>
      (∃ json, member members field.name.val = some json ∧
        Denotes packages package field.type json value) ∧
      FieldsDenote packages package members fields values
    | [] => False

/-- Element by element. -/
def AllDenote (packages : Packages) (package : Ident) (type : TypeRef) (elements : List Json) :
    List Value → Prop
  | [] => elements = []
  | value :: values =>
    match elements with
    | json :: elements =>
      Denotes packages package type json value ∧ AllDenote packages package type elements values
    | [] => False

end

variable {number : JsonNumber} {value : Int}

/-! ### Numbers -/

namespace JsonNumber

theorem asInt64_of_is (h : number.Is value) : number.asInt64 = Int64.ofInt value := by
  cases number with
  | int kept => rw [← h, Int64.ofInt_toInt, asInt64]
  | uint kept =>
    have hkept : UInt64.ofNat kept.toNat = kept := by simp
    rw [← h, Int64.ofInt_eq_ofNat, asInt64, ← UInt64.toInt64_ofNat', hkept]
  | fp kept =>
    cases h
    simp [asInt64, Double.truncate]

theorem asUint64_of_is {value : Nat} (h : number.Is value) : number.asUint64 = UInt64.ofNat value := by
  cases number with
  | int kept =>
    have hkept : Int64.ofNat value = kept := by
      rw [← Int64.ofInt_eq_ofNat, ← show kept.toInt = value from h, Int64.ofInt_toInt]
    rw [asUint64, ← hkept, Int64.toUInt64_ofNat']
  | uint kept =>
    have hkept : kept.toNat = value := Int.ofNat.inj h
    rw [asUint64, ← hkept, UInt64.ofNat_toNat]
  | fp kept =>
    cases h
    apply UInt64.toNat.inj
    simp only [asUint64, Double.truncate, UInt64.ofInt, Rat.num_intCast, Rat.den_intCast,
      Nat.cast_one, Int.tdiv_one, UInt64.toNat_ofNat']
    omega

theorem roundInteger_of_small (hsmall : value.natAbs < 2 ^ 53) : Double.roundInteger value = value := by
  rw [Double.roundInteger]
  exact if_pos hsmall

/-- A number that needs no more than 53 bits survives the conversion to `double`. -/
theorem asNumber_of_is (h : number.Is value) (hsmall : value.natAbs < 2 ^ 53) :
    number.asNumber = .finite value := by
  cases number with
  | int kept =>
    cases h
    rw [asNumber, roundInteger_of_small hsmall]
  | uint kept =>
    cases h
    rw [asNumber, roundInteger_of_small hsmall]
  | fp kept => exact h

theorem asNumber_finite (h : number.Is value) : ∃ rounded, number.asNumber = .finite rounded := by
  cases number with
  | int kept => exact ⟨_, rfl⟩
  | uint kept => exact ⟨_, rfl⟩
  | fp kept => exact ⟨_, h⟩

end JsonNumber

theorem checkIntegral_of_number {typeName : String} (h : number.asNumber = .finite value) :
    checkIntegral (.number number) typeName = .ok (number, (value : ℚ)) := by
  simp [checkIntegral, checkFiniteNumber, h, bind, Except.bind, pure, Except.pure]

variable {json : Json}

/-- A number within the bounds passes the check of a narrow type and comes out as it is. -/
theorem checkIntegerRange_of_is (typeName : String) (low high : Int) (h : IsInteger json value)
    (hsmall : value.natAbs < 2 ^ 53) (hlow : low ≤ value) (hhigh : value ≤ high) :
    ∃ number, checkIntegerRange json low high typeName = .ok number ∧
      number.asInt64 = Int64.ofInt value := by
  obtain ⟨number, rfl, his⟩ := h
  have hrange : ¬ ((value : ℚ) < low ∨ (value : ℚ) > high) := by
    rw [not_or, not_lt, gt_iff_lt, not_lt]
    exact ⟨by exact_mod_cast hlow, by exact_mod_cast hhigh⟩
  refine ⟨number, ?_, asInt64_of_is his⟩
  rw [checkIntegerRange, checkIntegral_of_number (asNumber_of_is his hsmall)]
  exact if_neg hrange

theorem checkIntegerRangeSafe_of_fp {typeName : String} (low high : Int) (hlow : low ≤ value)
    (hhigh : value < high) : checkIntegerRangeSafe (.number (.fp (.finite value))) low high typeName =
      .ok (.fp (.finite value)) := by
  have hrange : ¬ ((value : ℚ) < low ∨ (value : ℚ) ≥ high) := by
    rw [not_or, not_lt, ge_iff_le, not_le]
    exact ⟨by exact_mod_cast hlow, by exact_mod_cast hhigh⟩
  rw [checkIntegerRangeSafe, checkIntegral_of_number rfl]
  exact if_neg hrange

theorem checkInt64_of_is {value : Int64} (h : number.Is value.toInt) :
    checkInt64 (.number number) = .ok number := by
  obtain ⟨rounded, hfinite⟩ := asNumber_finite h
  have hupper := value.toInt_lt
  have hlower := value.le_toInt
  simp only [checkInt64, checkFiniteNumber, hfinite, bind, Except.bind]
  cases number with
  | int kept => rfl
  | uint kept =>
    have hkept : ¬ kept.toNat > 2 ^ 63 - 1 := by
      have hsame : (kept.toNat : Int) = value.toInt := h
      omega
    simp only [if_neg hkept]
    rfl
  | fp kept =>
    cases h
    exact_mod_cast checkIntegerRangeSafe_of_fp (-9223372036854775808) 9223372036854775808
      (by omega) (by omega)

theorem checkUint64_of_is {value : UInt64} (h : number.Is value.toNat) :
    checkUint64 (.number number) = .ok number := by
  obtain ⟨rounded, hfinite⟩ := asNumber_finite h
  have hupper := value.toNat_lt
  simp only [checkUint64, checkFiniteNumber, hfinite, bind, Except.bind]
  cases number with
  | int kept =>
    have hkept : ¬ kept.toInt < 0 := by
      have hsame : kept.toInt = value.toNat := h
      omega
    simp only [if_neg hkept]
    rfl
  | uint kept => rfl
  | fp kept =>
    cases h
    exact_mod_cast checkIntegerRangeSafe_of_fp 0 18446744073709551616 (by omega) (by omega)

variable {package : Ident} {members : List (Bytes × Json)} {values : List Value} {element : TypeRef}

/-! ### The encoder on a denoted value -/

section
variable {packages : Packages} {alloc : Allocator} {toFloat32 : Double → UInt32}
  {toFloat64 : Double → UInt64}

theorem encodePrimitive_of_denotes (alloc : Allocator) (toFloat32 : Double → UInt32)
    (toFloat64 : Double → UInt64) {primitive : PrimitiveType} {value : Value}
    (htyped : HasType packages package (.prim primitive) value)
    (hdenotes : Denotes packages package (.prim primitive) json value) (buf : Buffer) :
    encodePrimitive alloc toFloat32 toFloat64 json buf primitive = .ok (writeStep alloc value buf).2 := by
  cases value with
  | bool value =>
    cases htyped
    cases hdenotes
    rfl
  | int8 value =>
    cases htyped
    have hrange := And.intro value.le_toInt value.toInt_lt
    obtain ⟨number, hcheck, hnumber⟩ := checkIntegerRange_of_is "int8" (-128) 127 hdenotes (by omega)
      (by omega) (by omega)
    push_cast at hcheck
    simp only [encodePrimitive, bind, Except.bind, hcheck, hnumber, Int64.toInt8_ofInt,
      Int8.ofInt_toInt]
    rfl
  | uint8 value =>
    cases htyped
    have hrange := value.toNat_lt
    obtain ⟨number, hcheck, hnumber⟩ := checkIntegerRange_of_is "uint8" 0 255 hdenotes (by omega)
      (by omega) (by omega)
    push_cast at hcheck
    simp only [encodePrimitive, bind, Except.bind, hcheck, hnumber, Int64.ofInt_eq_ofNat,
      Int64.toUInt64_ofNat', UInt64.toUInt8_ofNat', UInt8.ofNat_toNat]
    rfl
  | int16 value =>
    cases htyped
    have hrange := And.intro value.le_toInt value.toInt_lt
    obtain ⟨number, hcheck, hnumber⟩ := checkIntegerRange_of_is "int16" (-32768) 32767 hdenotes (by omega)
      (by omega) (by omega)
    push_cast at hcheck
    simp only [encodePrimitive, bind, Except.bind, hcheck, hnumber, Int64.toInt16_ofInt,
      Int16.ofInt_toInt]
    rfl
  | uint16 value =>
    cases htyped
    have hrange := value.toNat_lt
    obtain ⟨number, hcheck, hnumber⟩ := checkIntegerRange_of_is "uint16" 0 65535 hdenotes (by omega)
      (by omega) (by omega)
    push_cast at hcheck
    simp only [encodePrimitive, bind, Except.bind, hcheck, hnumber, Int64.ofInt_eq_ofNat,
      Int64.toUInt64_ofNat', UInt64.toUInt16_ofNat', UInt16.ofNat_toNat]
    rfl
  | int32 value =>
    cases htyped
    have hrange := And.intro value.le_toInt value.toInt_lt
    obtain ⟨number, hcheck, hnumber⟩ := checkIntegerRange_of_is "int32" (-2147483648) 2147483647 hdenotes
      (by omega) (by omega) (by omega)
    push_cast at hcheck
    simp only [encodePrimitive, bind, Except.bind, hcheck, hnumber, Int64.toInt32_ofInt,
      Int32.ofInt_toInt]
    rfl
  | uint32 value =>
    cases htyped
    have hrange := value.toNat_lt
    obtain ⟨number, hcheck, hnumber⟩ := checkIntegerRange_of_is "uint32" 0 4294967295 hdenotes (by omega)
      (by omega) (by omega)
    push_cast at hcheck
    simp only [encodePrimitive, bind, Except.bind, hcheck, hnumber, Int64.ofInt_eq_ofNat,
      Int64.toUInt64_ofNat', UInt64.toUInt32_ofNat', UInt32.ofNat_toNat]
    rfl
  | int64 value =>
    cases htyped
    obtain ⟨number, rfl, his⟩ := hdenotes
    simp only [encodePrimitive, bind, Except.bind, checkInt64_of_is his,
      asInt64_of_is his, Int64.ofInt_toInt]
    rfl
  | uint64 value =>
    cases htyped
    obtain ⟨number, rfl, his⟩ := hdenotes
    simp only [encodePrimitive, bind, Except.bind, checkUint64_of_is his,
      asUint64_of_is his, UInt64.ofNat_toNat]
    rfl
  | float32 bits => cases hdenotes
  | float64 bits => cases hdenotes
  | string value =>
    cases htyped
    cases hdenotes
    rfl
  | bytes value => cases hdenotes
  | struct values => simp [HasType] at htyped
  | array values => simp [HasType] at htyped

/-! ### Structs and arrays -/

/-- The encoder finds the struct whose class the other generators use. -/
theorem findStruct_of_defines {name : Ident} (h : Defines packages package name) :
    ∃ definition, findStruct packages name package = some definition ∧
      classFields packages package name = some definition.fields := by
  obtain ⟨ast, hfind, definition, hdefinition, rfl⟩ := h
  have hsome : (ast.structs.find? fun other => other.name = definition.name).isSome = true :=
    find?_isSome.mpr ⟨definition, hdefinition, by simp⟩
  obtain ⟨found, hfound⟩ := Option.isSome_iff_exists.mp hsome
  exact ⟨found, by simp [findStruct, hfind, hfound], by simp [classFields, hfind, hfound]⟩

theorem encodeField_of_member {owner : Ident} {field : FieldDef} {buf buf' : Buffer}
    (hmember : member members field.name.val = some json)
    (hencode : encodeToBuffer alloc toFloat32 toFloat64 packages field.type package buf json = .ok buf') :
    encodeField alloc toFloat32 toFloat64 packages package owner field buf members = .ok buf' := by
  induction members with
  | nil => cases hmember
  | cons entry members ih =>
    obtain ⟨key, found⟩ := entry
    rw [encodeField]
    by_cases hkey : key = field.name.val
    · simp only [member, find?_cons, hkey, decide_true, Option.map_some,
        Option.some.injEq] at hmember
      rw [if_pos hkey, hmember, hencode]
      rfl
    · rw [if_neg hkey]
      apply ih
      simpa [member, find?_cons, hkey] using hmember

/-- On a JSON value that denotes the value, the encoder makes the writes of the value. -/
def RunsJson (alloc : Allocator) (toFloat32 : Double → UInt32) (toFloat64 : Double → UInt64)
    (packages : Packages) (value : Value) : Prop :=
  ∀ {package : Ident} {type : TypeRef} {json : Json}, Resolves packages package type →
    HasType packages package type value → Denotes packages package type json value → ∀ buf : Buffer,
      encodeToBuffer alloc toFloat32 toFloat64 packages type package buf json =
        .ok (runAll (value.writes.map (writeStep alloc)) buf)

theorem encodeFields_run {owner : Ident}
    (hmembers : ∀ value ∈ values, RunsJson alloc toFloat32 toFloat64 packages value) :
    ∀ {fields : List FieldDef}, (∀ field ∈ fields, Resolves packages package field.type) →
      FieldsHaveType packages package fields values →
        FieldsDenote packages package members fields values → ∀ buf : Buffer,
          fields.foldlM (fun buf field =>
            encodeField alloc toFloat32 toFloat64 packages package owner field buf members) buf =
              .ok (runAll ((writesAll values).map (writeStep alloc)) buf) := by
  induction values with
  | nil =>
    intro fields _ htyped _ buf
    obtain rfl : fields = [] := htyped
    rfl
  | cons value values ih =>
    intro fields hresolves htyped hdenotes buf
    obtain ⟨field, others, rfl, hvalue, hvalues⟩ := fieldsHaveType_cons.mp htyped
    obtain ⟨⟨json, hmember, hjson⟩, hrest⟩ := hdenotes
    have hfirst := hmembers value mem_cons_self (hresolves field mem_cons_self) hvalue hjson
    rw [foldlM_cons, encodeField_of_member hmember (hfirst buf), writesAll,
      map_append, runAll_append]
    exact ih (fun v hv => hmembers v (mem_cons_of_mem _ hv))
      (fun f hf => hresolves f (mem_cons_of_mem _ hf)) hvalues hrest _

theorem encodeElements_run
    (hmembers : ∀ value ∈ values, RunsJson alloc toFloat32 toFloat64 packages value)
    (hresolves : Resolves packages package element) :
    ∀ {elements : List Json}, AllHaveType packages package element values →
      AllDenote packages package element elements values → ∀ buf : Buffer,
        encodeElements alloc toFloat32 toFloat64 packages element package buf elements =
          .ok (runAll ((writesAll values).map (writeStep alloc)) buf) := by
  induction values with
  | nil =>
    intro elements _ hdenotes buf
    obtain rfl : elements = [] := hdenotes
    rfl
  | cons value values ih =>
    intro elements htyped hdenotes buf
    obtain ⟨hvalue, hvalues⟩ := htyped
    cases elements with
    | nil => cases hdenotes
    | cons json elements =>
      obtain ⟨hjson, hrest⟩ := hdenotes
      rw [encodeElements, hmembers value mem_cons_self hresolves hvalue hjson buf,
        writesAll, map_append, runAll_append]
      exact ih (fun v hv => hmembers v (mem_cons_of_mem _ hv)) hvalues hrest _

theorem length_of_allDenote :
    ∀ {elements : List Json}, AllDenote packages package element elements values →
      elements.length = values.length := by
  induction values with
  | nil =>
    intro elements h
    rw [show elements = [] from h]
    rfl
  | cons value values ih =>
    intro elements h
    cases elements with
    | nil => cases h
    | cons json elements => rw [length_cons, length_cons, ih h.2]

theorem encodeToBuffer_runs (hclosed : Closed packages) (value : Value) :
    RunsJson alloc toFloat32 toFloat64 packages value := by
  induction value using tree_induction with
  | primitive value hprimitive =>
    intro package type json _ htyped hdenotes buf
    obtain ⟨primitive, rfl⟩ := hasType_primitive hprimitive htyped
    have hencode := encodePrimitive_of_denotes alloc toFloat32 toFloat64 htyped hdenotes buf
    rw [writes_of_primitive hprimitive, map_singleton, runAll_cons, runAll_nil, ← hencode]
    cases json <;> simp only [encodeToBuffer, encodeOther]
  | struct values ih =>
    intro package type json hresolves htyped hdenotes buf
    obtain ⟨given, name, fields, rfl, hfields, hvalues⟩ := hasType_struct.mp htyped
    obtain ⟨definition, hfound, hclass⟩ := findStruct_of_defines hresolves
    rw [hfields] at hclass
    cases hclass
    simp only [Denotes, hfields] at hdenotes
    obtain ⟨members, rfl, hmembers⟩ := hdenotes
    simp only [encodeToBuffer, hfound, writes]
    exact encodeFields_run ih (fun field => hclosed.resolves_member hfields) hvalues hmembers buf
  | array values ih =>
    intro package type json hresolves htyped hdenotes buf
    obtain ⟨element, rfl, hvalues⟩ := hasType_array.mp htyped
    obtain ⟨elements, rfl, helements⟩ := hdenotes
    simp only [encodeToBuffer, writes, map_cons, runAll_cons,
      length_of_allDenote helements]
    exact encodeElements_run ih (show Resolves packages package element from hresolves) hvalues
      helements _

/-! ### Values with a JSON form -/

/-- No part of the value is a byte string or a floating-point number. -/
def Value.Plain (value : Value) : Prop :=
  ∀ written ∈ value.writes, written.primitive ∉ [some .float32, some .float64, some .bytes]

theorem exists_denotes_primitive {type : TypeRef} {value : Value}
    (hprimitive : value.isPrimitive = true) (hplain : value.Plain) :
    ∃ json, Denotes packages package type json value := by
  have hkind : value.primitive ∉ [some .float32, some .float64, some .bytes] :=
    hplain value (by simp [writes_of_primitive hprimitive])
  cases value with
  | bool value => exact ⟨_, rfl⟩
  | int8 value => exact ⟨_, .int value.toInt64, rfl, by simp [JsonNumber.Is]⟩
  | uint8 value => exact ⟨_, .uint value.toUInt64, rfl, by simp [JsonNumber.Is]⟩
  | int16 value => exact ⟨_, .int value.toInt64, rfl, by simp [JsonNumber.Is]⟩
  | uint16 value => exact ⟨_, .uint value.toUInt64, rfl, by simp [JsonNumber.Is]⟩
  | int32 value => exact ⟨_, .int value.toInt64, rfl, by simp [JsonNumber.Is]⟩
  | uint32 value => exact ⟨_, .uint value.toUInt64, rfl, by simp [JsonNumber.Is]⟩
  | int64 value => exact ⟨_, .int value, rfl, rfl⟩
  | uint64 value => exact ⟨_, .uint value, rfl, rfl⟩
  | string value => exact ⟨_, rfl⟩
  | float32 bits => simp [primitive] at hkind
  | float64 bits => simp [primitive] at hkind
  | bytes value => simp [primitive] at hkind
  | struct values => cases hprimitive
  | array values => cases hprimitive

/-- Another member under a name that no field has changes nothing. -/
theorem FieldsDenote.cons {key : Bytes} :
    ∀ {fields : List FieldDef}, (∀ field ∈ fields, field.name.val ≠ key) →
      FieldsDenote packages package members fields values →
        FieldsDenote packages package ((key, json) :: members) fields values := by
  induction values with
  | nil => exact fun _ h => h
  | cons value values ih =>
    intro fields hkeys h
    cases fields with
    | nil => exact h
    | cons field fields =>
      obtain ⟨⟨found, hmember, hdenotes⟩, hrest⟩ := h
      refine ⟨⟨found, ?_, hdenotes⟩, ih (fun f hf => hkeys f (mem_cons_of_mem _ hf)) hrest⟩
      have hkey : ¬ key = field.name.val := (hkeys field mem_cons_self).symm
      simpa [member, find?_cons, hkey] using hmember

theorem exists_fieldsDenote
    (hvalues : ∀ value ∈ values, ∀ {type : TypeRef}, Resolves packages package type → HasType packages package type value → ∃ json, Denotes packages package type json value)
    :
    ∀ {fields : List FieldDef}, (fields.map fun field => field.name.val).Nodup →
      (∀ field ∈ fields, Resolves packages package field.type) →
        FieldsHaveType packages package fields values →
          ∃ members, FieldsDenote packages package members fields values := by
  induction values with
  | nil => exact fun _ _ h => ⟨[], h⟩
  | cons value values ih =>
    intro fields hnodup hresolves htyped
    obtain ⟨field, others, rfl, hvalue, hothers⟩ := fieldsHaveType_cons.mp htyped
    obtain ⟨hnew, hnodup⟩ := nodup_cons.mp hnodup
    obtain ⟨json, hjson⟩ := hvalues value mem_cons_self (hresolves field mem_cons_self) hvalue
    obtain ⟨members, hmembers⟩ := ih (fun v hv => hvalues v (mem_cons_of_mem _ hv)) hnodup
      (fun f hf => hresolves f (mem_cons_of_mem _ hf)) hothers
    refine ⟨(field.name.val, json) :: members, ⟨json, by simp [member], hjson⟩, ?_⟩
    exact FieldsDenote.cons (fun f hf hsame => hnew (List.mem_map.mpr ⟨f, hf, hsame⟩)) hmembers

theorem exists_allDenote
    (hvalues : ∀ value ∈ values, HasType packages package element value → ∃ json, Denotes packages package element json value)
    (htyped : AllHaveType packages package element values) :
    ∃ elements, AllDenote packages package element elements values := by
  induction values with
  | nil => exact ⟨[], rfl⟩
  | cons value values ih =>
    obtain ⟨json, hjson⟩ := hvalues value mem_cons_self htyped.1
    obtain ⟨elements, helements⟩ := ih (fun v hv => hvalues v (mem_cons_of_mem _ hv)) htyped.2
    exact ⟨json :: elements, hjson, helements⟩

/-- Where the fields of a struct have different names, a plain value has a JSON form. -/
theorem exists_denotes (hclosed : Closed packages)
    (hnodup : ∀ package name definition, findStruct packages name package = some definition →
      (definition.fields.map fun field => field.name.val).Nodup) (value : Value) :
    value.Plain → ∀ {package : Ident} {type : TypeRef}, Resolves packages package type →
      HasType packages package type value → ∃ json, Denotes packages package type json value := by
  induction value using tree_induction with
  | primitive value hprimitive => exact fun hplain _ _ _ _ => exists_denotes_primitive hprimitive hplain
  | struct values ih =>
    intro hplain package type hresolves htyped
    obtain ⟨given, name, fields, rfl, hfields, hvalues⟩ := hasType_struct.mp htyped
    obtain ⟨definition, hfound, hclass⟩ := findStruct_of_defines hresolves
    rw [hfields] at hclass
    cases hclass
    have hparts (value : Value) (hmem : value ∈ values) : value.Plain := fun written hwritten =>
      hplain written (by rw [writes]; exact mem_writesAll.mpr ⟨value, hmem, hwritten⟩)
    obtain ⟨members, hmembers⟩ := exists_fieldsDenote
      (fun value hmem _ => ih value hmem (hparts value hmem)) (hnodup _ _ _ hfound)
      (fun field => hclosed.resolves_member hfields) hvalues
    refine ⟨.object members, ?_⟩
    simp only [Denotes, hfields]
    exact ⟨members, rfl, hmembers⟩
  | array values ih =>
    intro hplain package type hresolves htyped
    obtain ⟨element, rfl, hvalues⟩ := hasType_array.mp htyped
    have hparts (value : Value) (hmem : value ∈ values) : value.Plain := fun written hwritten =>
      hplain written (by
        rw [writes]
        exact mem_cons_of_mem _ (mem_writesAll.mpr ⟨value, hmem, hwritten⟩))
    have helement : Resolves packages package element := hresolves
    obtain ⟨elements, helements⟩ := exists_allDenote
      (fun value hmem => ih value hmem (hparts value hmem) helement) hvalues
    exact ⟨.array elements, elements, rfl, helements⟩

end

end OmniBinder.Idl
