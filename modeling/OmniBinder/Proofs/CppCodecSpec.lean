/-
Module: OmniBinder.Proofs.CppCodecSpec
Purpose: The generated C++ decoders against the wire form of a value.
Trusted boundary: none
Main exports: WithinLimits, generated_codec_round_trips
-/
import OmniBinder.Idl.SemanticValidator
import OmniBinder.Proofs.CppWire

namespace OmniBinder.Idl

open OmniBinder LittleEndian List DeserializeCode Value Outcome

variable {read : Bytes → Outcome Value} {name : Ident} {type : TypeRef}
  {packages : Packages}

variable {rest : Bytes}

/-! ### Reading step by step -/

theorem Outcome.bind_eq_ok {α β : Type} {outcome : Outcome α} {next : α → Bytes → Outcome β}
    {value : β} : outcome.bind next = .ok value rest ↔
      ∃ first middle, outcome = .ok first middle ∧ next first middle = .ok value rest := by
  cases outcome with
  | outOfFuel => simp [bind]
  | failed => simp [bind]
  | ok first middle => simp [bind]

theorem Outcome.ofOption_eq_ok {α : Type} {result : Option (α × Bytes)} {value : α} :
    ofOption result = .ok value rest ↔ result = some (value, rest) := by
  cases result with
  | none => simp [ofOption]
  | some result =>
    obtain ⟨first, middle⟩ := result
    simp [ofOption]

variable {view : Bytes} {values : List Value}

variable {count : Nat}

/-- The elements of an array are read as that many fields. -/
theorem readElements_eq (read : DeserializeCode → Bytes → Outcome Value) (code : DeserializeCode)
    (count : Nat) (view : Bytes) :
    readElements (read code) count view = readFields read (List.replicate count code) view := by
  induction count generalizing view with
  | zero => rfl
  | succ count ih => simp only [readElements, replicate_succ, readFields, ih]

theorem length_of_readElements
    (h : readElements read count view = .ok values rest) : values.length = count := by
  induction count generalizing view values with
  | zero =>
    cases h
    rfl
  | succ count ih =>
    obtain ⟨value, middle, _, h⟩ := bind_eq_ok.mp h
    obtain ⟨others, last, hothers, h⟩ := bind_eq_ok.mp h
    cases h
    rw [length_cons, ih hothers]

variable {fuel : Nat} {package : Ident} {element : TypeRef} {value : Value}

section
variable {sizeof : Ident → TypeRef → Nat} {packages : Packages}

/-- A loop that ends well read its count, accepted it and read that many elements. -/
theorem DeserializeCode.exec_loop {minWireSize : Nat} {body : DeserializeCode} :
    exec sizeof packages (fuel + 1) (.loop minWireSize package element body) view =
        .ok value rest ↔ ∃ count middle values, tryReadUint32 view = some (count, middle) ∧
        countAccepted sizeof minWireSize package element count.toNat middle.length = true ∧
        readElements (exec sizeof packages fuel body) count.toNat middle =
          .ok values rest ∧ value = .array values := by
  simp only [exec, bind_eq_ok, ofOption_eq_ok]
  constructor
  · rintro ⟨count, middle, hcount, h⟩
    split_ifs at h with haccepted
    obtain ⟨values, last, hvalues, h⟩ := bind_eq_ok.mp h
    cases h
    exact ⟨count, middle, values, hcount, haccepted, hvalues, rfl⟩
  · rintro ⟨count, middle, values, hcount, haccepted, hvalues, rfl⟩
    refine ⟨count, middle, hcount, ?_⟩
    rw [if_pos haccepted]
    exact bind_eq_ok.mpr ⟨values, rest, hvalues, rfl⟩

/-- A call that ends well found the class and read its fields. -/
theorem DeserializeCode.exec_call :
    exec sizeof packages (fuel + 1) (.callDeserialize package name) view =
        .ok value rest ↔ ∃ fields values, classFields packages package name = some fields ∧
        readFields (exec sizeof packages fuel) (genDeserialize package fields) view =
          .ok values rest ∧ value = .struct values := by
  simp only [exec]
  cases hfields : classFields packages package name with
  | none => simp
  | some fields =>
    simp only [bind_eq_ok]
    constructor
    · rintro ⟨values, middle, hvalues, h⟩
      cases h
      exact ⟨fields, values, rfl, hvalues, rfl⟩
    · rintro ⟨_, values, h, hvalues, rfl⟩
      cases h
      exact ⟨values, rest, hvalues, rfl⟩

end

/-! ### The limits of the decoder -/

/-- The element counts that the decoder of an array lets pass. The encoder writes any count. -/
def CountWithinLimits (sizeof : Ident → TypeRef → Nat) (package : Ident) (element : TypeRef)
    (count : Nat) : Prop :=
  count ≤ maxArrayElements ∧
    (minimumWireSize element = 0 → count ≤ maxZeroWireArrayElements) ∧
    count ≤ maxMessageSize / sizeof package element

mutual

/-- Every array in the value has an element count that the decoder lets pass. -/
def WithinLimits (sizeof : Ident → TypeRef → Nat) (packages : Packages) (package : Ident)
    (type : TypeRef) : Value → Prop
  | .struct values =>
    match type with
    | .custom given name =>
      match classFields packages (resolvePackage package given) name with
      | some fields =>
        FieldsWithinLimits sizeof packages (resolvePackage package given) fields values
      | none => True
    | _ => True
  | .array values =>
    match type with
    | .array element =>
      CountWithinLimits sizeof package element values.length ∧
        AllWithinLimits sizeof packages package element values
    | _ => True
  | _ => True

def FieldsWithinLimits (sizeof : Ident → TypeRef → Nat) (packages : Packages) (package : Ident)
    (fields : List FieldDef) : List Value → Prop
  | [] => True
  | value :: values =>
    match fields with
    | field :: fields =>
      WithinLimits sizeof packages package field.type value ∧
        FieldsWithinLimits sizeof packages package fields values
    | [] => True

def AllWithinLimits (sizeof : Ident → TypeRef → Nat) (packages : Packages) (package : Ident)
    (type : TypeRef) : List Value → Prop
  | [] => True
  | value :: values =>
    WithinLimits sizeof packages package type value ∧
      AllWithinLimits sizeof packages package type values

end

section
variable {sizeof : Ident → TypeRef → Nat} {packages : Packages}

theorem withinLimits_struct {given : Ident} {fields : List FieldDef}
    (hfields : classFields packages (resolvePackage package given) name = some fields) :
    WithinLimits sizeof packages package (.custom given name) (.struct values) ↔
      FieldsWithinLimits sizeof packages (resolvePackage package given) fields values := by
  simp [WithinLimits, hfields]

theorem withinLimits_primitive (hprimitive : value.isPrimitive = true) :
    WithinLimits sizeof packages package type value := by
  cases value with
  | struct values => cases hprimitive
  | array values => cases hprimitive
  | _ => simp [WithinLimits]

/-- The checks of the generated code are the limits and the room for that many elements. -/
theorem countAccepted_iff {remaining : Nat} :
    countAccepted sizeof (minimumWireSize element) package element count remaining = true ↔
      CountWithinLimits sizeof package element count ∧
        (minimumWireSize element ≠ 0 → count ≤ remaining / minimumWireSize element) := by
  unfold countAccepted CountWithinLimits
  split_ifs with hmax hroom hzero hsize
  · simp only [false_iff]
    omega
  · simp only [false_iff]
    rintro ⟨_, hcount⟩
    exact absurd (hcount hroom.1) (Nat.not_le.mpr hroom.2)
  · simp only [false_iff]
    rintro ⟨⟨_, hcount, _⟩, _⟩
    exact absurd (hcount hzero.1) (Nat.not_le.mpr hzero.2)
  · simp only [false_iff]
    rintro ⟨⟨_, _, hcount⟩, _⟩
    exact absurd hcount (Nat.not_le.mpr hsize)
  · simp only [true_iff]
    refine ⟨⟨Nat.le_of_not_lt hmax, fun h => ?_, Nat.le_of_not_lt hsize⟩, fun h => ?_⟩
    · exact Nat.le_of_not_lt fun hlt => hzero ⟨h, hlt⟩
    · exact Nat.le_of_not_lt fun hlt => hroom ⟨h, hlt⟩

/-- No value is shorter on the wire than the least size the generator assumes for its type. -/
theorem minimumWireSize_le (htyped : HasType packages package type value) :
    minimumWireSize type ≤ value.wire.length := by
  cases value with
  | struct values =>
    obtain ⟨given, name, _, rfl, _⟩ := hasType_struct.mp htyped
    exact Nat.zero_le _
  | array values =>
    obtain ⟨element, rfl, _⟩ := hasType_array.mp htyped
    simp [minimumWireSize, wire]
  | _ =>
    cases htyped
    simp [minimumWireSize, wire]

theorem minimumWireSize_mul_le (htyped : AllHaveType packages package element values) :
    values.length * minimumWireSize element ≤ (wireAll values).length := by
  induction values with
  | nil => simp
  | cons value values ih =>
    have hfirst := minimumWireSize_le htyped.1
    have hrest := ih htyped.2
    rw [length_cons, wireAll, length_append, Nat.succ_mul]
    omega

theorem genDeserialize_repeated : genDeserialize package (repeated element count) =
    List.replicate count (emitDeserializeValue package element) :=
  map_replicate

theorem fieldsWithinLimits_repeated :
    FieldsWithinLimits sizeof packages package (repeated element values.length) values ↔
      AllWithinLimits sizeof packages package element values := by
  induction values with
  | nil => simp [FieldsWithinLimits, AllWithinLimits]
  | cons value values ih => exact and_congr_right' ih

/-! ### Deserializing the wire form -/

/-- The value is read back from its wire form, whatever follows it, exactly by a fuel of its depth or more
    and within the limits. -/
def ReadsBack (sizeof : Ident → TypeRef → Nat) (packages : Packages) (value : Value) : Prop :=
  ∀ {package : Ident} {type : TypeRef} (fuel : Nat) (rest left : Bytes),
    HasType packages package type value → value.wire.length < 2 ^ 32 →
      (DeserializeCode.exec sizeof packages fuel (emitDeserializeValue package type)
          (value.wire ++ rest) = .ok value left ↔
        value.depth ≤ fuel ∧ WithinLimits sizeof packages package type value ∧ rest = left)

theorem readFields_wire (hmembers : ∀ value ∈ values, ReadsBack sizeof packages value)
    (fuel : Nat) (rest left : Bytes) :
    ∀ {fields : List FieldDef}, FieldsHaveType packages package fields values →
      (wireAll values).length < 2 ^ 32 →
        (readFields (exec sizeof packages fuel) (genDeserialize package fields)
            (wireAll values ++ rest) = .ok values left ↔
          depthAll values ≤ fuel ∧ FieldsWithinLimits sizeof packages package fields values ∧
            rest = left) := by
  induction values with
  | nil =>
    intro fields htyped _
    cases htyped
    simp [genDeserialize, readFields, wireAll, depthAll, FieldsWithinLimits]
  | cons value values ih =>
    intro fields htyped hlength
    obtain ⟨field, others, rfl, hvalue, hvalues⟩ := fieldsHaveType_cons.mp htyped
    rw [wireAll, length_append] at hlength
    have hfirst (middle : Bytes) := hmembers value mem_cons_self fuel (wireAll values ++ rest)
      middle hvalue (by omega)
    have hothers := ih (fun v hv => hmembers v (mem_cons_of_mem _ hv)) hvalues (by omega)
    rw [wireAll, append_assoc, genDeserialize, map_cons, readFields, bind_eq_ok,
      depthAll, max_le_iff]
    simp only [bind_eq_ok]
    constructor
    · rintro ⟨_, middle, hhead, _, last, htail, h⟩
      cases h
      obtain ⟨hdepth, hlimits, rfl⟩ := (hfirst middle).mp hhead
      obtain ⟨hdepths, hall, rfl⟩ := hothers.mp htail
      exact ⟨⟨hdepth, hdepths⟩, ⟨hlimits, hall⟩, rfl⟩
    · rintro ⟨⟨hdepth, hdepths⟩, ⟨hlimits, hall⟩, rfl⟩
      exact ⟨value, _, (hfirst _).mpr ⟨hdepth, hlimits, rfl⟩, values, _,
        hothers.mpr ⟨hdepths, hall, rfl⟩, rfl⟩

theorem deserialize_wire (value : Value) : ReadsBack sizeof packages value := by
  induction value using tree_induction with
  | primitive value hprimitive =>
    intro package type fuel rest left htyped hlength
    obtain ⟨primitive, rfl⟩ := hasType_primitive hprimitive htyped
    have hdepth : value.depth = 1 := by cases value <;> first | rfl | cases hprimitive
    cases fuel with
    | zero => simp [exec, hdepth]
    | succ fuel =>
      rw [emitDeserializeValue, exec, readPrimitive_wire rest htyped hlength, hdepth]
      simp [ofOption, withinLimits_primitive hprimitive]
  | struct values ih =>
    intro package type fuel rest left htyped hlength
    obtain ⟨given, name, fields, rfl, hfields, hvalues⟩ := hasType_struct.mp htyped
    cases fuel with
    | zero => simp [exec, depth]
    | succ fuel =>
      rw [emitDeserializeValue, exec_call, depth, Nat.add_le_add_iff_right,
        withinLimits_struct hfields, ← readFields_wire ih fuel rest left hvalues hlength]
      simp [hfields, wire]
  | array values ih =>
    intro package type fuel rest left htyped hlength
    obtain ⟨element, rfl, hvalues⟩ := hasType_array.mp htyped
    cases fuel with
    | zero => simp [exec, depth]
    | succ fuel =>
      rw [wire, length_append] at hlength
      have hread := readFields_wire ih fuel rest left (fieldsHaveType_repeated.mpr hvalues) (by omega)
      rw [genDeserialize_repeated, ← readElements_eq, fieldsWithinLimits_repeated] at hread
      -- the check against the unread bytes passes: each element takes at least its least size
      have hroom : minimumWireSize element ≠ 0 →
          values.length ≤ (wireAll values ++ rest).length / minimumWireSize element := by
        intro hpositive
        rw [Nat.le_div_iff_mul_le (Nat.pos_of_ne_zero hpositive), length_append]
        exact le_trans (minimumWireSize_mul_le hvalues) (Nat.le_add_right _ _)
      rw [emitDeserializeValue, exec_loop, wire, append_assoc,
        tryReadUint32_encode, depth, Nat.add_le_add_iff_right]
      constructor
      · rintro ⟨count, middle, members, hcount, haccepted, hmembers, heq⟩
        cases heq
        cases hcount
        -- as many elements were read as the count says, so the count was not truncated
        rw [← length_of_readElements hmembers] at haccepted hmembers
        obtain ⟨hdepth, hall, hrest⟩ := hread.mp hmembers
        exact ⟨hdepth, ⟨(countAccepted_iff.mp haccepted).1, hall⟩, hrest⟩
      · rintro ⟨hdepth, ⟨hcount, hall⟩, hrest⟩
        have hsmall : (UInt32.ofNat values.length).toNat = values.length := by
          have hmax := hcount.1
          simp only [UInt32.toNat_ofNat', maxArrayElements] at hmax ⊢
          omega
        refine ⟨_, _, values, rfl, ?_, ?_, rfl⟩
        · rw [hsmall]
          exact countAccepted_iff.mpr ⟨hcount, hroom⟩
        · rw [hsmall]
          exact hread.mpr ⟨hdepth, hall, hrest⟩

/-- For a value whose serialized bytes fit in a message, the generated decoder returns the value from
    these bytes and leaves exactly what follows them, if and only if every array in the value has an
    element count that the decoder lets pass. -/
theorem generated_codec_round_trips {alloc : Allocator} {package : Ident} {type : TypeRef}
    {value : Value} {buf buf' : Buffer} {written : Bytes} (htyped : HasType packages package type value)
    (hserialized : (emitSerializeValue package type).exec alloc packages buf value = (true, buf'))
    (hwritten : buf'.bytes = buf.bytes ++ written)
    (hfits : written.length ≤ maxMessageSize - messageHeaderSize) :
    (∃ bound, ∀ fuel ≥ bound, ∀ trailing : Bytes,
        DeserializeCode.exec sizeof packages fuel (emitDeserializeValue package type)
          (written ++ trailing) = .ok value trailing) ↔
      WithinLimits sizeof packages package type value := by
  have hwire : written = value.wire := by
    rw [((puts_serialize alloc htyped).stores hserialized).2] at hwritten
    exact (append_cancel_left hwritten).symm
  subst hwire
  have hlength : value.wire.length < 2 ^ 32 := by
    simp only [maxMessageSize, messageHeaderSize] at hfits
    omega
  constructor
  · rintro ⟨bound, hreads⟩
    exact ((deserialize_wire value _ _ _ htyped hlength).mp (hreads bound le_rfl [])).2.1
  · intro hlimits
    exact ⟨value.depth, fun fuel hfuel trailing =>
      (deserialize_wire value _ _ _ htyped hlength).mpr ⟨hfuel, hlimits, rfl⟩⟩

end

/-! ### A package with an array of structs -/

namespace TrackFile

def trackPackage : Ident := ⟨ascii "geo", by decide⟩

def point : Ident := ⟨ascii "Mark", by decide⟩

def track : Ident := ⟨ascii "Track", by decide⟩

def pointFields : List FieldDef := [⟨.prim .uint8, ⟨ascii "at", by decide⟩⟩]

def trackFields : List FieldDef :=
  [⟨.array (.custom trackPackage point), ⟨ascii "marks", by decide⟩⟩]

/-- A struct `Mark` with a byte, and a struct `Track` with an array of points. -/
def file : AstFile where
  packageName := trackPackage
  filePath := ascii "track.bidl"
  importedPackages := []
  structs := [⟨point, pointFields⟩, ⟨track, trackFields⟩]
  topics := []
  services := []
  importsBeforeDeclarations := true
  packageBeforeImportsAndDeclarations := true
  packageDeclarationCount := 1

/-- A track of so many points. -/
def trackOf (count : Nat) : Value := .struct [.array (List.replicate count (.struct [.uint8 0]))]

theorem hasType_trackOf
    (hpoint : classFields packages trackPackage point = some pointFields)
    (htrack : classFields packages trackPackage track = some trackFields) (count : Nat) :
    HasType packages trackPackage (.custom trackPackage track) (trackOf count) := by
  have hpoints : AllHaveType packages trackPackage (.custom trackPackage point)
      (List.replicate count (.struct [.uint8 0])) := by
    induction count with
    | zero => simp [AllHaveType]
    | succ count ih =>
      refine ⟨hasType_struct.mpr ⟨_, _, _, rfl, hpoint, ?_⟩, ih⟩
      exact ⟨rfl, rfl⟩
  refine hasType_struct.mpr ⟨_, _, _, rfl, htrack, ?_⟩
  exact ⟨hpoints, rfl⟩

theorem length_wire_trackOf (count : Nat) : (trackOf count).wire.length = 4 + count := by
  have hpoints : (wireAll (List.replicate count (.struct [.uint8 0]))).length = count := by
    induction count with
    | zero => rfl
    | succ count ih => simp [replicate_succ, wireAll, wire, ih, Nat.add_comm]
  simp [trackOf, wire, wireAll, hpoints]

/-- The file is accepted, and its two classes are found in the resulting packages. -/
theorem file_accepted : ∃ ast packages, validateSemantics file Packages.empty = .ok (ast, packages) ∧
      classFields packages trackPackage point = some pointFields ∧
      classFields packages trackPackage track = some trackFields :=
  exists_accepted (by decide +kernel)

theorem withinLimits_trackOf (sizeof : Ident → TypeRef → Nat)
    (hpoint : classFields packages trackPackage point = some pointFields)
    (htrack : classFields packages trackPackage track = some trackFields) (count : Nat) :
    WithinLimits sizeof packages trackPackage (.custom trackPackage track) (trackOf count) ↔
      count ≤ maxArrayElements ∧ count ≤ maxZeroWireArrayElements ∧
        count ≤ maxMessageSize / sizeof trackPackage (.custom trackPackage point) := by
  have hpoints : AllWithinLimits sizeof packages trackPackage (.custom trackPackage point)
      (List.replicate count (.struct [.uint8 0])) := by
    induction count with
    | zero => simp [AllWithinLimits]
    | succ count ih =>
      refine ⟨(withinLimits_struct hpoint).mpr ?_, ih⟩
      simp [FieldsWithinLimits, WithinLimits, pointFields]
  rw [trackOf, withinLimits_struct htrack]
  simp only [FieldsWithinLimits, WithinLimits, trackFields, CountWithinLimits, minimumWireSize,
    length_replicate, forall_const, and_true]
  exact and_iff_left hpoints

theorem fits_trackOf : ∀ written ∈ (trackOf count).writes, tooLong written = false := by
  intro written hwritten
  rw [trackOf, writes, writesAll, writesAll, append_nil, writes] at hwritten
  rcases mem_cons.mp hwritten with rfl | hwritten
  · rfl
  obtain ⟨value, hvalue, hwritten⟩ := mem_writesAll.mp hwritten
  rw [eq_of_mem_replicate hvalue] at hwritten
  cases mem_singleton.mp hwritten
  rfl

/-- A track is serialized into its wire form. -/
theorem serialize_trackOf (count : Nat)
    (hpoint : classFields packages trackPackage point = some pointFields)
    (htrack : classFields packages trackPackage track = some trackFields)
    (hcount : 0 + (4 + count) ≤ sizeMax / 2) :
    ∃ buf', (emitSerializeValue trackPackage (.custom trackPackage track)).exec .succeeds
        packages Buffer.init (trackOf count) = (true, buf') ∧ buf'.bytes = (trackOf count).wire := by
  rw [← length_wire_trackOf] at hcount
  obtain ⟨buf', hserialized, -, hbytes, -⟩ := (puts_serialize .succeeds
    (hasType_trackOf hpoint htrack count)).appends fits_trackOf Buffer.init rfl hcount
  exact ⟨buf', hserialized, hbytes⟩

/-- A track of two points survives the round trip. -/
theorem short_track_is_read_back :
    ∃ packages buf', (emitSerializeValue trackPackage (.custom trackPackage track)).exec
        .succeeds packages Buffer.init (trackOf 2) = (true, buf') ∧
      ∃ bound, ∀ fuel ≥ bound, ∀ trailing : Bytes,
        DeserializeCode.exec (fun _ _ => 1) packages fuel
            (emitDeserializeValue trackPackage (.custom trackPackage track))
            (buf'.bytes ++ trailing) = .ok (trackOf 2) trailing := by
  obtain ⟨_, packages, _, hpoint, htrack⟩ := file_accepted
  obtain ⟨buf', hserialized, hbytes⟩ := serialize_trackOf 2 hpoint htrack (by decide)
  have hfits : buf'.bytes.length ≤ maxMessageSize - messageHeaderSize := by
    rw [hbytes, length_wire_trackOf]
    decide
  have hlimits := (withinLimits_trackOf (fun _ _ => 1) hpoint htrack 2).mpr (by decide)
  exact ⟨packages, buf', hserialized,
    (generated_codec_round_trips (hasType_trackOf hpoint htrack 2) hserialized rfl hfits).mpr hlimits⟩

/-- A track of 4097 points is serialized into 4101 bytes that the decoder never takes back: an array
    of structs is held to the limit for elements that may be empty on the wire. -/
theorem long_track_is_not_read_back :
    ∃ ast packages buf', validateSemantics file Packages.empty = .ok (ast, packages) ∧
      HasType packages trackPackage (.custom trackPackage track) (trackOf 4097) ∧
      (emitSerializeValue trackPackage (.custom trackPackage track)).exec .succeeds packages
        Buffer.init (trackOf 4097) = (true, buf') ∧
      buf'.bytes.length ≤ maxMessageSize - messageHeaderSize ∧
      ∀ (sizeof : Ident → TypeRef → Nat) (fuel : Nat) (trailing : Bytes),
        DeserializeCode.exec sizeof packages fuel
            (emitDeserializeValue trackPackage (.custom trackPackage track))
            (buf'.bytes ++ trailing) ≠ .ok (trackOf 4097) trailing := by
  obtain ⟨ast, packages, haccepted, hpoint, htrack⟩ := file_accepted
  have htyped := hasType_trackOf hpoint htrack 4097
  obtain ⟨buf', hserialized, hbytes⟩ :=
    serialize_trackOf 4097 hpoint htrack (by decide)
  refine ⟨ast, packages, buf', haccepted, htyped, hserialized, ?_, ?_⟩
  · rw [hbytes, length_wire_trackOf]
    decide
  intro sizeof fuel trailing hread
  rw [hbytes] at hread
  have hlength : (trackOf 4097).wire.length < 2 ^ 32 := by
    rw [length_wire_trackOf]
    decide
  have hlimits := ((deserialize_wire (trackOf 4097) _ _ _ htyped hlength).mp hread).2.1
  have hcount := ((withinLimits_trackOf sizeof hpoint htrack 4097).mp hlimits).2.1
  exact absurd hcount (by decide)

end TrackFile

end OmniBinder.Idl
