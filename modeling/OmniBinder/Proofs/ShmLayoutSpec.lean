/-
Module: OmniBinder.Proofs.ShmLayoutSpec
Purpose: What `shmInitLayout` leaves in a mapping: a control block that `shmValidateMappedLayout` accepts
  and both rings empty. Whatever wrote an accepted mapping, its regions lie apart and inside it. Which
  services share the name of their shared memory.
Trusted boundary: the hash is any injective function of a string
Main exports: mapped_layout_sound, shmNames_differ_iff
-/
import Mathlib.Logic.Equiv.List
import OmniBinder.Transport.ShmRing
import OmniBinder.Core.ServiceCodec

namespace OmniBinder

open List LittleEndian

variable {offset other : Nat} {value reqCapacity respCapacity : UInt32} {mapping : Bytes}

@[simp]
theorem length_storeWord (value : UInt32)
    (h : offset + 4 ≤ mapping.length) : (storeWord offset value mapping).length = mapping.length := by
  apply length_splice
  rw [length_encode]
  exact h

theorem loadWord_storeWord
    (h : offset + 4 ≤ mapping.length) : loadWord (storeWord offset value mapping) offset = value := by
  have hlen : (encode 4 value.toNat).length = 4 := length_encode _ _
  have hread := take_drop_splice (show offset ≤ mapping.length by omega)
    (encode 4 value.toNat)
  rw [hlen] at hread
  rw [loadWord, storeWord, hread, decode_encode_of_lt value.toNat_lt,
    UInt32.ofNat_toNat]

/-- A store elsewhere does not change a word. -/
theorem loadWord_storeWord_of_disjoint
    (h : offset + 4 ≤ mapping.length) (hdisjoint : other + 4 ≤ offset ∨ offset + 4 ≤ other) :
    loadWord (storeWord offset value mapping) other = loadWord mapping other := by
  have hlen : (encode 4 value.toNat).length = 4 := length_encode _ _
  rw [loadWord, loadWord, storeWord]
  rcases hdisjoint with hbefore | hbehind
  · rw [take_drop_splice_before (by omega) hbefore]
  · rw [drop_splice_behind (by omega) (by omega)]

/-! ### Several words -/

/-- Store words one after the other, each at its offset. -/
def storeWords (words : List (Nat × UInt32)) (mapping : Bytes) : Bytes :=
  words.foldl (fun mapping word => storeWord word.1 word.2 mapping) mapping

/-- The words at the two offsets do not overlap. -/
def WordsApart (offset other : Nat) : Prop := other + 4 ≤ offset ∨ offset + 4 ≤ other

/-- Words apart from each other are all there in the end, and what is apart from them stays. -/
theorem storeWords_spec (words : List (Nat × UInt32)) (hroom : ∀ word ∈ words, word.1 + 4 ≤ mapping.length)
    (hapart : words.Pairwise fun word word' => WordsApart word.1 word'.1) :
    (storeWords words mapping).length = mapping.length ∧
      (∀ word ∈ words, loadWord (storeWords words mapping) word.1 = word.2) ∧
      ∀ other, (∀ word ∈ words, WordsApart word.1 other) →
        loadWord (storeWords words mapping) other = loadWord mapping other := by
  induction words generalizing mapping with
  | nil => exact ⟨rfl, by simp, fun _ _ => rfl⟩
  | cons first words ih =>
    obtain ⟨hfirst, hapart⟩ := pairwise_cons.mp hapart
    have hin := hroom first mem_cons_self
    have hlength := length_storeWord first.2 hin
    obtain ⟨hsame, hstored, hkept⟩ := @ih (storeWord first.1 first.2 mapping)
      (fun word hword => (hroom word (mem_cons_of_mem _ hword)).trans hlength.ge) hapart
    refine ⟨hsame.trans hlength, fun word hword => ?_, fun other hother => ?_⟩
    · rcases mem_cons.mp hword with rfl | hword
      · refine (hkept word.1 fun word' hword' => (hfirst word' hword').symm).trans ?_
        exact loadWord_storeWord hin
      · exact hstored word hword
    · refine (hkept other fun word hword => hother word (mem_cons_of_mem _ hword)).trans ?_
      exact loadWord_storeWord_of_disjoint hin (hother first mem_cons_self)

/-! ### The size of a mapping -/

/-- The response ring lies behind the request ring's data area. -/
theorem shmResponseRingOffset_le (reqCapacity : Nat) :
    64 + reqCapacity ≤ shmResponseRingOffset reqCapacity ∧
      shmResponseRingOffset reqCapacity < 64 + reqCapacity + 4 := by
  simp only [shmResponseRingOffset, shmAlignUp, shmRequestDataOffset, shmRequestRingOffset,
    shmControlBlockSize, shmRingHeaderSize, shmRingHeaderAlign]
  omega

/-- The size is computed for capacities that may have been raised, so there is room for the given ones. -/
theorem layout_le_calculateShmSize {reqCapacity respCapacity : Nat}
    (h : calculateShmSize reqCapacity respCapacity ≠ 0) :
    shmResponseDataOffset reqCapacity + respCapacity ≤ calculateShmSize reqCapacity respCapacity := by
  have hraised : ∀ capacity, capacity ≤ shmNormalizeRingCapacity capacity := fun capacity => by
    unfold shmNormalizeRingCapacity
    split_ifs <;> omega
  have hreq := hraised reqCapacity
  have hresp := hraised respCapacity
  simp only [calculateShmSize] at h ⊢
  split_ifs at h ⊢
  · exact absurd rfl h
  · exact absurd rfl h
  simp only [shmResponseDataOffset, shmResponseRingOffset, shmAlignUp, shmRingHeaderAlign]
  omega

/-- Valid capacities have a layout. -/
theorem calculateShmSize_ne_zero (hreq : shmMinRingCapacity ≤ reqCapacity.toNat)
    (hresp : shmMinRingCapacity ≤ respCapacity.toNat) :
    calculateShmSize reqCapacity.toNat respCapacity.toNat ≠ 0 := by
  have hkept : ∀ capacity : UInt32, shmMinRingCapacity ≤ capacity.toNat →
      shmNormalizeRingCapacity capacity.toNat = capacity.toNat ∧
        shmIsValidRingCapacity capacity.toNat = true := by
    intro capacity hmin
    have hlt := capacity.toNat_lt
    have hpos : capacity.toNat ≠ 0 := Nat.ne_of_gt (lt_of_lt_of_le (by decide) hmin)
    refine ⟨by rw [shmNormalizeRingCapacity, if_neg hpos, if_neg (Nat.not_lt.mpr hmin)], ?_⟩
    simp only [shmIsValidRingCapacity, uint32Max, Bool.and_eq_true, decide_eq_true_eq]
    exact ⟨hmin, decide_eq_true (by omega)⟩
  obtain ⟨hreq, hreqValid⟩ := hkept reqCapacity hreq
  obtain ⟨hresp, hrespValid⟩ := hkept respCapacity hresp
  have hoffset := (shmResponseRingOffset_le reqCapacity.toNat).2
  have hreq32 := reqCapacity.toNat_lt
  have hresp32 := respCapacity.toNat_lt
  simp only [calculateShmSize, hreq, hresp, hreqValid, hrespValid, shmResponseDataOffset, shmRingHeaderSize,
    sizeMax]
  split_ifs
  · simp_all
  · omega
  · omega

/-! ### An initialised mapping -/

/-- The words that `shmInitLayout` stores, in this order. -/
def layoutWords (reqCapacity respCapacity : UInt32) : List (Nat × UInt32) :=
  let response := shmResponseRingOffset reqCapacity.toNat
  [(0, shmMagic), (4, 1), (8, reqCapacity), (12, respCapacity), (48, 0), (52, 0), (56, reqCapacity),
    (60, 0), (response, 0), (response + 4, 0), (response + 8, respCapacity), (response + 12, 0), (16, 1)]

/-- All of them are there in the end. -/
theorem shmInitLayout_words (respCapacity : UInt32)
    (hend : shmResponseDataOffset reqCapacity.toNat ≤ mapping.length) :
    (shmInitLayout mapping reqCapacity respCapacity).length = mapping.length ∧
      ∀ word ∈ layoutWords reqCapacity respCapacity,
        loadWord (shmInitLayout mapping reqCapacity respCapacity) word.1 = word.2 := by
  obtain ⟨hbehind, -⟩ := shmResponseRingOffset_le reqCapacity.toNat
  simp only [shmResponseDataOffset, shmRingHeaderSize] at hend
  have hcleared : (List.replicate mapping.length (0 : UInt8)).length = mapping.length := length_replicate
  have hinit : shmInitLayout mapping reqCapacity respCapacity = storeWords
      (layoutWords reqCapacity respCapacity) (List.replicate mapping.length 0) := by
    rw [shmInitLayout, if_neg (by omega)]
    rfl
  obtain ⟨hlength, hstored, -⟩ := @storeWords_spec (List.replicate mapping.length 0)
    (layoutWords reqCapacity respCapacity) (by simp [layoutWords]; omega)
    (by simp [layoutWords, WordsApart]; omega)
  rw [hinit]
  exact ⟨hlength.trans hcleared, hstored⟩

/-- An empty ring of the given capacity. -/
structure EmptyRing (ring : ShmRing) (capacity : UInt32) : Prop where
  writePos_eq : ring.writePos = 0
  readPos_eq : ring.readPos = 0
  capacity_eq : ring.capacity = capacity
  length_data : ring.data.length = capacity.toNat

/-- `shmInitLayout` on a mapping of sufficient size sets up two empty rings. -/
theorem shmInitLayout_ring (side : RingSide)
    (hreq : shmMinRingCapacity ≤ reqCapacity.toNat) (hresp : shmMinRingCapacity ≤ respCapacity.toNat)
    (hsize : calculateShmSize reqCapacity.toNat respCapacity.toNat ≤ mapping.length) :
    EmptyRing (side.ring (shmInitLayout mapping reqCapacity respCapacity) reqCapacity respCapacity)
      (side.capacity reqCapacity respCapacity) := by
  have hend := (layout_le_calculateShmSize (calculateShmSize_ne_zero hreq hresp)).trans hsize
  obtain ⟨hlength, hwords⟩ := shmInitLayout_words respCapacity
    ((Nat.le_add_right _ _).trans hend)
  obtain ⟨hbehind, -⟩ := shmResponseRingOffset_le reqCapacity.toNat
  have hdata : ∀ offset count, offset + count ≤ mapping.length →
      (((shmInitLayout mapping reqCapacity respCapacity).drop offset).take count).length = count := by
    intro offset count hin
    rw [length_take, length_drop, hlength]
    omega
  simp only [shmResponseDataOffset, shmRingHeaderSize] at hend
  simp only [layoutWords, forall_mem_cons] at hwords
  obtain ⟨-, -, -, -, hwrite, hread, hcapacity, -, hwrite', hread', hcapacity', -⟩ := hwords
  cases side with
  | request => exact ⟨hwrite, hread, hcapacity, hdata 64 _ (by omega)⟩
  | response => exact ⟨hwrite', hread', hcapacity', hdata _ _ hend⟩

/-! ### What the validator accepts -/

/-- A ring whose header has the given capacity and a read cursor below it. -/
structure MappedRing (ring : ShmRing) (capacity : UInt32) : Prop where
  capacity_eq : ring.capacity = capacity
  readPos_lt : ring.readPos < capacity
  length_data : ring.data.length = capacity.toNat

/-- In a mapping the validator accepts, the capacities are those of the control block and both rings lie
    in the mapping. -/
theorem of_shmValidateMappedLayout
    (h : shmValidateMappedLayout mapping = some (reqCapacity, respCapacity)) :
    loadWord mapping 8 = reqCapacity ∧ loadWord mapping 12 = respCapacity ∧
    shmResponseDataOffset reqCapacity.toNat + respCapacity.toNat ≤ mapping.length ∧
    ∀ side : RingSide, MappedRing (side.ring mapping reqCapacity respCapacity)
      (side.capacity reqCapacity respCapacity) := by
  simp only [shmValidateMappedLayout] at h
  split_ifs at h with _ _ hlayout hrings
  cases h
  rw [not_or, Nat.not_lt] at hlayout
  simp only [not_or, not_not, UInt32.not_le] at hrings
  obtain ⟨hcapacity, hcapacity', hread, -, hread', -⟩ := hrings
  have hend := (layout_le_calculateShmSize hlayout.1).trans hlayout.2
  obtain ⟨hbehind, -⟩ := shmResponseRingOffset_le (loadWord mapping 8).toNat
  refine ⟨rfl, rfl, hend, fun side => ?_⟩
  simp only [shmResponseDataOffset, shmRingHeaderSize] at hend
  cases side with
  | request =>
    refine ⟨hcapacity, hcapacity ▸ hread, ?_⟩
    simp [RingSide.ring, shmRingAt, RingSide.capacity, shmRequestRingOffset, shmAlignUp,
      shmControlBlockSize, shmRingHeaderSize, shmRingHeaderAlign]
    omega
  | response =>
    refine ⟨hcapacity', hcapacity' ▸ hread', ?_⟩
    simp [RingSide.ring, shmRingAt, RingSide.capacity, shmRingHeaderSize]
    omega

/-- A stretch of the mapping and the alignment of what lies there. -/
structure ShmRegion where
  start : Nat
  size : Nat
  alignment : Nat

/-- The control block, which is packed, and the headers and data areas of the two rings. -/
def shmRegions (reqCapacity respCapacity : UInt32) : List ShmRegion :=
  [⟨0, shmControlBlockSize, 1⟩, ⟨shmRequestRingOffset, shmRingHeaderSize, shmRingHeaderAlign⟩,
    ⟨shmRequestDataOffset, reqCapacity.toNat, 1⟩,
    ⟨shmResponseRingOffset reqCapacity.toNat, shmRingHeaderSize, shmRingHeaderAlign⟩,
    ⟨shmResponseDataOffset reqCapacity.toNat, respCapacity.toNat, 1⟩]

/-- The validator accepts every mapping that was initialised for valid capacities and reports them. In
    every mapping it accepts, whatever wrote it, the regions that follow from the reported capacities lie
    one behind the other, are aligned and inside the mapping. -/
theorem mapped_layout_sound (mapping : Bytes) (reqCapacity respCapacity : UInt32) :
    (shmIsValidRingCapacity reqCapacity.toNat = true → shmIsValidRingCapacity respCapacity.toNat = true →
      calculateShmSize reqCapacity.toNat respCapacity.toNat ≤ mapping.length →
      shmValidateMappedLayout (shmInitLayout mapping reqCapacity respCapacity) =
        some (reqCapacity, respCapacity)) ∧
    (shmValidateMappedLayout mapping = some (reqCapacity, respCapacity) →
      (shmRegions reqCapacity respCapacity).Pairwise (fun region region' =>
        region.start + region.size ≤ region'.start) ∧
      ∀ region ∈ shmRegions reqCapacity respCapacity, region.start % region.alignment = 0 ∧
        region.start + region.size ≤ mapping.length) := by
  constructor
  · intro hreqValid hrespValid hsize
    have hreq := of_decide_eq_true (Bool.and_eq_true_iff.mp hreqValid).1
    have hresp := of_decide_eq_true (Bool.and_eq_true_iff.mp hrespValid).1
    have hne := calculateShmSize_ne_zero hreq hresp
    have hend := (layout_le_calculateShmSize hne).trans hsize
    obtain ⟨hlength, hwords⟩ := shmInitLayout_words respCapacity
      ((Nat.le_add_right _ _).trans hend)
    obtain ⟨hwrite, hread, hcapacity, -⟩ := shmInitLayout_ring .request hreq hresp hsize
    obtain ⟨hwrite', hread', hcapacity', -⟩ := shmInitLayout_ring .response hreq hresp hsize
    simp only [layoutWords, forall_mem_cons] at hwords
    obtain ⟨hmagic, hversion, hreqWord, hrespWord, -, -, -, -, -, -, -, -, hready, -⟩ := hwords
    have hblock : ¬ mapping.length < shmControlBlockSize := by
      have hoffset := (shmResponseRingOffset_le reqCapacity.toNat).1
      simp only [shmResponseDataOffset, shmControlBlockSize] at hend ⊢
      omega
    have hpos : ∀ capacity : UInt32, shmMinRingCapacity ≤ capacity.toNat → ¬ 0 ≥ capacity :=
      fun capacity hmin hzero => by
        have hle := UInt32.le_iff_toNat_le.mp hzero
        exact absurd (hmin.trans hle) (by decide)
    simp only [shmValidateMappedLayout, hlength, if_neg hblock, hmagic, hversion, hready, hreqWord,
      hrespWord, hwrite, hread, hcapacity, hwrite', hread', hcapacity', RingSide.capacity, ne_eq,
      not_true_eq_false, or_self, if_false, hpos _ hreq, hpos _ hresp, hne, Nat.not_lt.mpr hsize]
  · intro haccepted
    obtain ⟨-, -, hend, -⟩ := of_shmValidateMappedLayout haccepted
    obtain ⟨hbehind, -⟩ := shmResponseRingOffset_le reqCapacity.toNat
    have haligned : shmResponseRingOffset reqCapacity.toNat % 4 = 0 := Nat.mul_mod_left _ 4
    simp only [shmResponseDataOffset, shmRingHeaderSize] at hend
    simp [shmRegions, shmRequestDataOffset, shmRequestRingOffset, shmAlignUp, shmControlBlockSize,
      shmRingHeaderSize, shmRingHeaderAlign, shmResponseDataOffset, Nat.mod_one]
    omega

/-- A text is determined by what stands before and behind its last separator. -/
theorem append_cons_inj_last {a : UInt8} {p q x y : Bytes} (hx : a ∉ x) (hy : a ∉ y) :
    p ++ a :: x = q ++ a :: y ↔ p = q ∧ x = y := by
  refine ⟨fun h => ?_, fun ⟨hp, hq⟩ => hp ▸ hq ▸ rfl⟩
  rcases append_eq_append_iff.1 h with ⟨_ | ⟨b, d⟩, rfl, hd⟩ | ⟨_ | ⟨b, d⟩, rfl, hd⟩
  · exact ⟨(append_nil p).symm, (cons.inj hd).2⟩
  · exact absurd ((cons.inj hd).2 ▸ mem_append_right d mem_cons_self) hx
  · exact ⟨append_nil q, (cons.inj hd).2.symm⟩
  · exact absurd ((cons.inj hd).2 ▸ mem_append_right d mem_cons_self) hy

namespace ServiceIdentity

variable (hashText : Bytes → Bytes) (id : ServiceIdentity)

def shmName : Bytes := generateShmName hashText id.name id.instanceId id.hostId

/-- The service name and those of the host id and the instance id that are not empty, in this order and
    cut at the separator byte. -/
def pieces : List Bytes :=
  (id.name :: [id.hostId, id.instanceId].filter (· ≠ [])).flatMap (splitOn 0x1f)

/-- What is hashed, cut at the separator byte. -/
theorem splitOn_shmHashInput :
    splitOn 0x1f (shmHashInput id.name id.instanceId id.hostId) = id.pieces := by
  have hcut : ∀ front back : Bytes,
      splitOn 0x1f (front ++ 0x1f :: back) = splitOn 0x1f front ++ splitOn 0x1f back :=
    fun front back => splitOnP_append_cons front back rfl
  unfold shmHashInput pieces
  by_cases hhost : id.hostId = [] <;> by_cases hinstance : id.instanceId = []
  · simp [hhost, hinstance]
  · simp [hhost, hinstance, hcut]
  · simp [hhost, hinstance, hcut]
  · simp only [ne_eq, hhost, hinstance, not_false_eq_true, if_true, hcut]
    simp [hhost, hinstance]

variable {hashText} {a b : ServiceIdentity}

theorem shmName_eq_iff (hinjective : Function.Injective hashText) (hplain : ∀ text, 0x5f ∉ hashText text) :
    a.shmName hashText = b.shmName hashText ↔ a.name.take 48 = b.name.take 48 ∧ a.pieces = b.pieces := by
  have hsplit : Function.Injective (splitOn (0x1f : UInt8)) :=
    Function.LeftInverse.injective fun _ => intercalate_splitOn 0x1f
  rw [← splitOn_shmHashInput, ← splitOn_shmHashInput, hsplit.eq_iff]
  simp only [shmName, generateShmName, append_assoc, append_cancel_left_eq]
  exact (append_cons_inj_last (hplain _) (hplain _)).trans (and_congr_right fun _ => hinjective.eq_iff)

end ServiceIdentity

/-- Two services have different names and handshake paths exactly when their service names differ in
    the first 48 bytes, or their identities differ once they are cut at the separator. -/
theorem shmNames_differ_iff (hashText : Bytes → Bytes) (hinjective : Function.Injective hashText)
    (hplain : ∀ text, 0x5f ∉ hashText text) (a b : ServiceIdentity) :
    (a ≠ b → a.shmName hashText ≠ b.shmName hashText ∧
      shmHandshakePath hashText (a.shmName hashText) ≠ shmHandshakePath hashText (b.shmName hashText)) ↔
    (a ≠ b → a.name.take 48 ≠ b.name.take 48 ∨ a.pieces ≠ b.pieces) := by
  have hpath : ∀ x y, shmHandshakePath hashText x = shmHandshakePath hashText y ↔ x = y := fun x y => by
    simp only [shmHandshakePath, append_cancel_left_eq, append_cancel_right_eq, hinjective.eq_iff]
  rw [ne_eq (shmHandshakePath ..), hpath, and_self, ne_eq (a.shmName _),
    ServiceIdentity.shmName_eq_iff hinjective hplain, not_and_or]

/-- With an injective hash, two instances of one service on one host have different names. -/
theorem instances_have_shmNames :
    let hashText := fun text : Bytes => replicate (Encodable.encode (text.map UInt8.toNat)) (0x30 : UInt8)
    let a : ServiceIdentity := ⟨ascii "s", ascii "h", ascii "1"⟩
    let b : ServiceIdentity := ⟨ascii "s", ascii "h", ascii "2"⟩
    a.shmName hashText ≠ b.shmName hashText ∧
      shmHandshakePath hashText (a.shmName hashText) ≠ shmHandshakePath hashText (b.shmName hashText) := by
  intro hashText a b
  have hinjective : Function.Injective hashText := fun x y h =>
    map_injective_iff.2 (fun _ _ => UInt8.toNat_inj.1)
      (Encodable.encode_injective (replicate_left_injective (0x30 : UInt8) h))
  have hplain : ∀ text, 0x5f ∉ hashText text := fun text h => by
    cases eq_of_mem_replicate h
  exact (shmNames_differ_iff hashText hinjective hplain a b).2 (fun _ => by decide +kernel) (by decide)

/-- The host id of one service is the instance id of the other. -/
theorem host_and_instance_share_shmName :
    let a : ServiceIdentity := ⟨ascii "s", ascii "x", []⟩
    let b : ServiceIdentity := ⟨ascii "s", [], ascii "x"⟩
    a ≠ b ∧ a.shmName fnv1aText = b.shmName fnv1aText ∧
      shmHandshakePath fnv1aText (a.shmName fnv1aText) =
        shmHandshakePath fnv1aText (b.shmName fnv1aText) :=
  ⟨by decide, rfl, rfl⟩

end OmniBinder
