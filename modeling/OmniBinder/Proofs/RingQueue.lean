/-
Module: OmniBinder.Proofs.RingQueue
Purpose: The shared-memory ring refines a bounded queue of frames.
Trusted boundary: none
Main exports: RingHolds, shmRing_carries_frames
-/
import OmniBinder.Proofs.ShmLayoutSpec

namespace OmniBinder

open List LittleEndian

variable {data : Bytes} {c : UInt32} {history : RingHistory} {waiting : List Bytes}

variable {pos : UInt32}

/-! ### Cursor arithmetic -/

/-- Inside the ring, advancing a cursor is addition modulo the capacity. -/
theorem toNat_shmAdvancePos {delta capacity : UInt32} (hpos : pos < capacity)
    (hdelta : delta.toNat ≤ capacity.toNat) :
    (shmAdvancePos pos delta capacity).toNat = (pos.toNat + delta.toNat) % capacity.toNat := by
  have hposN : pos.toNat < capacity.toNat := UInt32.lt_iff_toNat_lt.mp hpos
  have hroom : (capacity - pos).toNat = capacity.toNat - pos.toNat :=
    UInt32.toNat_sub_of_le _ _ (UInt32.le_iff_toNat_le.mpr hposN.le)
  have hcap := capacity.toNat_lt
  unfold shmAdvancePos
  by_cases hwrap : delta ≥ capacity - pos
  · have hwrapN : capacity.toNat - pos.toNat ≤ delta.toNat := by
      rw [← hroom]
      exact UInt32.le_iff_toNat_le.mp hwrap
    rw [if_pos hwrap, UInt32.toNat_sub_of_le _ _ hwrap, hroom,
      Nat.mod_eq_sub_mod (by omega), Nat.mod_eq_of_lt (by omega)]
    omega
  · have hwrapN : delta.toNat < capacity.toNat - pos.toNat := by
      rw [← hroom]
      exact UInt32.lt_iff_toNat_lt.mp (UInt32.not_le.mp hwrap)
    rw [if_neg hwrap, UInt32.toNat_add, Nat.mod_eq_of_lt (by omega), Nat.mod_eq_of_lt (by omega)]

/-- Copying behind the occupied part of the data area extends it by what was copied. -/
theorem occupied_shmCopyIn {start count : Nat}
    (hlen : data.length = c.toNat) (hc : 0 < c.toNat) (hpos : pos.toNat = (start + count) % c.toNat)
    (content : Bytes) (hfits : count + content.length ≤ c.toNat) :
    (shmCopyIn data pos c content).length = c.toNat ∧
      Circular.occupied (shmCopyIn data pos c content) start (count + content.length) =
        Circular.occupied data start count ++ content := by
  have hlt : pos.toNat < c.toNat := by
    rw [hpos]
    exact Nat.mod_lt _ hc
  have hroom : (c - pos).toNat = data.length - pos.toNat := by
    rw [hlen]
    exact UInt32.toNat_sub_of_le _ _ (UInt32.le_iff_toNat_le.mpr hlt.le)
  rw [shmCopyIn, hroom]
  constructor
  · rw [Circular.length_store (by omega) (by omega), hlen]
  · rw [hpos, ← hlen]
    exact Circular.occupied_store (by omega) (by omega)

variable {n : UInt32}

/-- Copying out of the data area reads its occupied part. -/
theorem shmCopyOut_eq (hlen : data.length = c.toNat) (hpos : pos < c)
    (hn : n.toNat ≤ c.toNat) : shmCopyOut data pos c n = Circular.occupied data pos.toNat n.toNat := by
  have hle := (UInt32.lt_iff_toNat_lt.mp hpos).le
  have hroom : (c - pos).toNat = data.length - pos.toNat := by
    rw [hlen]
    exact UInt32.toNat_sub_of_le _ _ (UInt32.le_iff_toNat_le.mpr hle)
  rw [shmCopyOut, hroom]
  exact Circular.fetch_eq_occupied (by omega) (by omega)

/-! ### The bytes between the cursors -/

/-- The write cursor of the ring of capacity `c` is so many bytes ahead of the read cursor. -/
structure RingCursors (c : UInt32) (ring : ShmRing) (used : Nat) : Prop where
  capacity_min : shmMinRingCapacity ≤ c.toNat
  capacity_eq : ring.capacity = c
  readPos_lt : ring.readPos < c
  used_lt : used < c.toNat
  writePos_eq : ring.writePos.toNat = (ring.readPos.toNat + used) % c.toNat

namespace RingCursors

variable {c : UInt32} {ring : ShmRing} {used : Nat}

section
variable (h : RingCursors c ring used)
include h

theorem capacity_pos : 0 < c.toNat :=
  lt_of_lt_of_le (by decide) h.capacity_min

theorem readPos_toNat_lt : ring.readPos.toNat < c.toNat :=
  UInt32.lt_iff_toNat_lt.mp h.readPos_lt

theorem writePos_lt : ring.writePos < c := by
  rw [UInt32.lt_iff_toNat_lt, h.writePos_eq]
  exact Nat.mod_lt _ h.capacity_pos

/-- The distance between the cursors is the number of bytes between them. -/
theorem toNat_distance : (if ring.writePos ≥ ring.readPos then ring.writePos - ring.readPos
      else c - ring.readPos + ring.writePos).toNat = used := by
  have hread := h.readPos_toNat_lt
  have hused := h.used_lt
  have hwrite := h.writePos_eq
  have hcap := c.toNat_lt
  by_cases hwrap : ring.readPos.toNat + used < c.toNat
  · rw [Nat.mod_eq_of_lt hwrap] at hwrite
    have hle : ring.readPos ≤ ring.writePos := UInt32.le_iff_toNat_le.mpr (by omega)
    rw [if_pos hle, UInt32.toNat_sub_of_le _ _ hle]
    omega
  · rw [Nat.mod_eq_sub_mod (by omega), Nat.mod_eq_of_lt (by omega)] at hwrite
    have hlt : ¬ ring.writePos ≥ ring.readPos := by
      intro hge
      have := UInt32.le_iff_toNat_le.mp hge
      omega
    rw [if_neg hlt, UInt32.toNat_add,
      UInt32.toNat_sub_of_le _ _ (UInt32.le_iff_toNat_le.mpr hread.le), Nat.mod_eq_of_lt (by omega)]
    omega

theorem toNat_availableRead : (shmRingAvailableRead ring c).toNat = used := by
  rw [← h.toNat_distance, shmRingAvailableRead,
    if_neg (by simp [Nat.not_lt.mpr h.capacity_min, h.capacity_eq]),
    if_neg (by simp [UInt32.not_le, h.writePos_lt, h.readPos_lt])]

theorem toNat_availableWrite : (shmRingAvailableWrite ring c).toNat = c.toNat - 1 - used := by
  have hused := h.used_lt
  have hone : (c - 1).toNat = c.toNat - 1 :=
    UInt32.toNat_sub_of_le _ _ (UInt32.le_iff_toNat_le.mpr h.capacity_pos)
  rw [shmRingAvailableWrite,
    if_neg (by
      simp [Nat.not_lt.mpr h.capacity_min, h.capacity_eq, UInt32.not_le, h.writePos_lt,
        h.readPos_lt]),
    UInt32.toNat_sub_of_le _ _ (by
      rw [UInt32.le_iff_toNat_le, hone, h.toNat_availableRead]
      omega),
    hone, h.toNat_availableRead]

end

end RingCursors

/-- The largest frame the inspection lets through. -/
theorem toNat_maxFrame (hmin : shmMinRingCapacity ≤ c.toNat) : (c - 1 - 4).toNat = c.toNat - 5 := by
  simp only [shmMinRingCapacity] at hmin
  have hone : (c - 1).toNat = c.toNat - 1 :=
    UInt32.toNat_sub_of_le _ _ (UInt32.le_iff_toNat_le.mpr (show 1 ≤ c.toNat by omega))
  have hfour : (4 : UInt32).toNat = 4 := rfl
  have hle : 4 ≤ c - 1 := by
    rw [UInt32.le_iff_toNat_le, hone, hfour]
    omega
  rw [UInt32.toNat_sub_of_le _ _ hle, hone, hfour]
  omega

/-- An index that wraps at the width `w` before it wraps at the capacity `c`. -/
theorem mod_mod_of_wrap {r i c w : Nat} (hr : r < c) (hc : c < w) (hi : i < c) (hsum : w ≤ r + i) :
    (r + i) % w % c = (r + (i - (w - c))) % c := by
  have hback : r + (i - (w - c)) - c = r + i - w := by omega
  rw [Nat.mod_eq_sub_mod hsum, Nat.mod_eq_of_lt (a := r + i - w) (by omega), ← hback,
    ← Nat.mod_eq_sub_mod (by omega)]

/-- The ring of capacity `c` has the given bytes between its read and its write cursor. -/
structure RingSpan (c : UInt32) (ring : ShmRing) (content : Bytes) : Prop
    extends RingCursors c ring content.length where
  length_data : ring.data.length = c.toNat
  content_eq : Circular.occupied ring.data ring.readPos.toNat content.length = content

namespace RingSpan

variable {c : UInt32} {ring : ShmRing} {content : Bytes}

section
variable (hmin : shmMinRingCapacity ≤ c.toNat)
include hmin

/-- A ring with equal cursors has nothing between them. -/
theorem of_mappedRing (h : MappedRing ring c) (hequal : ring.readPos = ring.writePos) :
    RingSpan c ring [] := by
  have hread := UInt32.lt_iff_toNat_lt.mp h.readPos_lt
  refine ⟨⟨hmin, h.capacity_eq, h.readPos_lt, lt_of_lt_of_le (by decide) hmin, ?_⟩, h.length_data, ?_⟩
  · rw [← hequal]
    exact (Nat.mod_eq_of_lt hread).symm
  · simp [Circular.occupied]

theorem of_emptyRing (hempty : EmptyRing ring c) : RingSpan c ring [] := by
  refine of_mappedRing hmin ⟨hempty.capacity_eq, ?_, hempty.length_data⟩
    (hempty.readPos_eq.trans hempty.writePos_eq.symm)
  rw [hempty.readPos_eq, UInt32.lt_iff_toNat_lt]
  exact lt_of_lt_of_le (by decide) hmin

end

section
variable (h : RingSpan c ring content)
include h

/-- Copying bytes in at the write cursor and advancing it appends them. -/
theorem append {extra : Bytes} (hn : n.toNat = extra.length)
    (hfits : content.length + extra.length < c.toNat) :
    RingSpan c
      { ring with
        data := shmCopyIn ring.data ring.writePos c extra
        writePos := shmAdvancePos ring.writePos n c }
      (content ++ extra) := by
  obtain ⟨hlen, hocc⟩ :=
    occupied_shmCopyIn h.length_data h.capacity_pos h.writePos_eq extra (by omega)
  refine ⟨⟨h.capacity_min, h.capacity_eq, h.readPos_lt, ?_, ?_⟩, hlen, ?_⟩
  · rw [length_append]
    exact hfits
  · change (shmAdvancePos ring.writePos n c).toNat = _
    rw [toNat_shmAdvancePos h.writePos_lt (by omega), h.writePos_eq, hn, Nat.mod_add_mod,
      length_append, Nat.add_assoc]
  · rw [length_append]
    exact hocc.trans (by rw [h.content_eq])

/-- Advancing the read cursor drops bytes from the front. -/
theorem advance (hn : n.toNat ≤ content.length) :
    RingSpan c { ring with readPos := shmAdvancePos ring.readPos n c } (content.drop n.toNat) := by
  have hused := h.used_lt
  have hread : (shmAdvancePos ring.readPos n c).toNat = (ring.readPos.toNat + n.toNat) % c.toNat :=
    toNat_shmAdvancePos h.readPos_lt (by omega)
  refine ⟨⟨h.capacity_min, h.capacity_eq, ?_, ?_, ?_⟩, h.length_data, ?_⟩
  · rw [UInt32.lt_iff_toNat_lt]
    rw [hread]
    exact Nat.mod_lt _ h.capacity_pos
  · rw [length_drop]
    omega
  · change ring.writePos.toNat = ((shmAdvancePos ring.readPos n c).toNat + _) % c.toNat
    rw [hread, h.writePos_eq, Nat.mod_add_mod, length_drop]
    congr 1
    omega
  · change Circular.occupied ring.data (shmAdvancePos ring.readPos n c).toNat _ = _
    rw [hread, length_drop, ← h.length_data,
      Circular.occupied_advance hn (by rw [h.length_data]; omega), h.content_eq]

/-- Reading takes bytes from the front. -/
theorem read_spec (hpos : 0 < n.toNat) (hn : n.toNat ≤ content.length) :
    shmRingRead ring n c =
      (n, content.take n.toNat, { ring with readPos := shmAdvancePos ring.readPos n c }) := by
  have hused := h.used_lt
  have hclamp : (if n < shmRingAvailableRead ring c then n else shmRingAvailableRead ring c) = n := by
    by_cases hlt : n < shmRingAvailableRead ring c
    · rw [if_pos hlt]
    rw [if_neg hlt]
    apply UInt32.toNat_inj.mp
    rw [UInt32.lt_iff_toNat_lt, h.toNat_availableRead] at hlt
    rw [h.toNat_availableRead]
    omega
  have hne : n ≠ 0 := by
    intro hzero
    rw [hzero] at hpos
    exact absurd hpos (by decide)
  rw [shmRingRead, if_neg (by simp [h.capacity_eq, UInt32.not_le, h.readPos_lt])]
  simp only [hclamp, if_neg hne]
  rw [shmCopyOut_eq h.length_data h.readPos_lt (by omega), Circular.occupied_take hn, h.content_eq]

/-- The length prefix is the number encoded in the first four bytes, also where they wrap. Near the
    largest capacity `read_pos + i` wraps at the width of the machine word, and one of the last three
    bytes is read in the place of another. -/
theorem lengthPrefix_spec (hfour : 4 ≤ content.length)
    (hlast : c.toNat ≤ 2 ^ 32 - 4 ∨ ∀ i, 0 < i → i < 4 → content.getD i 0 = 0) :
    shmLengthPrefix ring c = UInt32.ofNat (decode (content.take 4)) := by
  have hused := h.used_lt
  have hread := h.readPos_toNat_lt
  have hwidth := c.toNat_lt
  have hget : ∀ i < 4, content.getD i 0 = ring.data.getD ((ring.readPos.toNat + i) % c.toNat) 0 := by
    intro i hi
    have hcell := Circular.getD_occupied ring.readPos.toNat (0 : UInt8)
      (show i < content.length by omega) (h.length_data.symm ▸ hused.le)
    rwa [h.content_eq, h.length_data] at hcell
  have hbyte : ∀ i ∈ List.range 4,
      ring.data.getD ((ring.readPos + UInt32.ofNat i) % c).toNat 0 = content.getD i 0 := by
    intro i hi
    have hlt : i < 4 := mem_range.mp hi
    have hsmall : (UInt32.ofNat i).toNat = i := by
      rw [UInt32.toNat_ofNat', Nat.mod_eq_of_lt (by omega)]
    rw [UInt32.toNat_mod, UInt32.toNat_add, hsmall]
    by_cases hsum : ring.readPos.toNat + i < 2 ^ 32
    · rw [Nat.mod_eq_of_lt hsum, hget i hlt]
    · have hzero := hlast.resolve_left (by omega)
      rw [mod_mod_of_wrap hread hwidth (by omega) (Nat.not_lt.mp hsum), ← hget _ (by omega),
        hzero _ (by omega) (by omega), hzero i (by omega) hlt]
  have htake : (List.range 4).map (content.getD · 0) = content.take 4 := by
    apply ext_getElem
    · simp [hfour]
    · intro i hi hi'
      simp [show i < content.length by simp at hi; omega]
  rw [shmLengthPrefix, map_congr_left hbyte, htake]

end

/-- Advancing the read cursor passes as many bytes. -/
theorem skip {chunk : Bytes} (h : RingSpan c ring (chunk ++ content)) (hn : n.toNat = chunk.length) :
    RingSpan c { ring with readPos := shmAdvancePos ring.readPos n c } content := by
  have hadv := h.advance (n := n) (by rw [hn, length_append]; exact Nat.le_add_right _ _)
  rwa [hn, drop_left] at hadv

end RingSpan

/-! ### The queue of frames -/

/-- A frame as it lies in the ring. -/
def ringFrame (frame : Bytes) : Bytes := encode 4 frame.length ++ frame

/-- The bytes of the waiting frames. -/
def ringBytes (waiting : List Bytes) : Bytes := (waiting.map ringFrame).flatten

@[simp]
theorem length_ringFrame (frame : Bytes) : (ringFrame frame).length = 4 + frame.length := by
  simp [ringFrame]

@[simp]
theorem ringBytes_cons (frame : Bytes) (waiting : List Bytes) :
    ringBytes (frame :: waiting) = ringFrame frame ++ ringBytes waiting := rfl

@[simp]
theorem ringBytes_snoc (waiting : List Bytes) (frame : Bytes) :
    ringBytes (waiting ++ [frame]) = ringBytes waiting ++ ringFrame frame := by
  simp [ringBytes]

variable {frame : Bytes}

theorem FrameSized.toNat_ofNat (h : FrameSized frame) :
    (UInt32.ofNat frame.length).toNat = frame.length := by
  have hmax := h.2
  simp only [maxMessageSize] at hmax
  rw [UInt32.toNat_ofNat', Nat.mod_eq_of_lt (by omega)]

/-- The size of a frame with its prefix does not wrap. -/
theorem FrameSized.toNat_total (h : FrameSized frame) :
    (4 + UInt32.ofNat frame.length).toNat = 4 + frame.length := by
  have hmax := h.2
  simp only [maxMessageSize] at hmax
  rw [UInt32.toNat_add, h.toNat_ofNat]
  simp only [UInt32.reduceToNat]
  omega

namespace RingSpan

variable {c : UInt32} {ring : ShmRing} {content rest : Bytes}

section
variable (h : RingSpan c ring content) (hsized : FrameSized frame)
include h hsized

/-- A frame for which there is room is stored behind what is there: first the length prefix, then the
    body, each possibly in two pieces. -/
theorem writeFrame_accepted (hroom : 4 + frame.length ≤ c.toNat - 1 - content.length) :
    ∃ ring', shmRingWriteFrame ring frame (UInt32.ofNat frame.length) c =
        (4 + UInt32.ofNat frame.length, ring') ∧ RingSpan c ring' (content ++ ringFrame frame) := by
  have hlength := hsized.toNat_ofNat
  have hspace : ¬ shmRingAvailableWrite ring c < 4 + UInt32.ofNat frame.length := by
    rw [UInt32.lt_iff_toNat_lt, h.toNat_availableWrite, hsized.toNat_total]
    omega
  have hfront : (encode 4 (UInt32.ofNat frame.length).toNat).length = 4 :=
    length_encode _ _
  have hspan1 := h.append (n := 4) hfront.symm (by rw [hfront]; omega)
  have hspan2 := hspan1.append hlength (by rw [length_append, hfront]; omega)
  refine ⟨_, by simp only [shmRingWriteFrame, if_neg hspace, hlength, take_length]; rfl, ?_⟩
  rw [ringFrame, ← append_assoc]
  rw [hlength] at hspan2
  exact hspan2

/-- A frame for which there is no room leaves the ring as it was. -/
theorem writeFrame_refused (hroom : ¬ 4 + frame.length ≤ c.toNat - 1 - content.length) :
    shmRingWriteFrame ring frame (UInt32.ofNat frame.length) c = (0, ring) := by
  have hspace : shmRingAvailableWrite ring c < 4 + UInt32.ofNat frame.length := by
    rw [UInt32.lt_iff_toNat_lt, h.toNat_availableWrite, hsized.toNat_total]
    omega
  simp only [shmRingWriteFrame, if_pos hspace]

/-- Sending: with room the frame is stored and the call reports its size, otherwise the call reports
    zero and nothing changes. -/
theorem sendFrame_spec (notifyFd : Int) : (4 + frame.length ≤ c.toNat - 1 - content.length ∧
        (shmRingSendFrame ring c frame (UInt32.ofNat frame.length) notifyFd).written ≠ 0 ∧
        RingSpan c (shmRingSendFrame ring c frame (UInt32.ofNat frame.length) notifyFd).ring
          (content ++ ringFrame frame)) ∨ (¬ 4 + frame.length ≤ c.toNat - 1 - content.length ∧
        shmRingSendFrame ring c frame (UInt32.ofNat frame.length) notifyFd = ⟨0, ring, false⟩) := by
  have htotal := hsized.toNat_total
  have hne : 4 + UInt32.ofNat frame.length ≠ 0 := by
    intro hzero
    rw [hzero] at htotal
    change 0 = 4 + frame.length at htotal
    omega
  have hchecks : ¬ (ring.capacity ≠ c ∨ ring.writePos ≥ c) := by
    simp [h.capacity_eq, UInt32.not_le, h.writePos_lt]
  rw [shmRingSendFrame, if_neg hchecks]
  by_cases hroom : 4 + frame.length ≤ c.toNat - 1 - content.length
  · left
    obtain ⟨ring', hwrite, hspan⟩ := h.writeFrame_accepted hsized hroom
    simp only [hwrite, ne_eq, not_true_eq_false, if_false]
    exact ⟨hroom, hne, hspan⟩
  · right
    simp only [h.writeFrame_refused hsized hroom, ne_eq, hne.symm, not_false_eq_true, if_true]
    exact ⟨hroom, trivial⟩

end

/-! ### Receiving -/

section
variable (h : RingSpan c ring (ringFrame frame ++ rest)) (hsized : FrameSized frame)
include h hsized

/-- The checks on the length prefix pass for a frame that was sent. -/
theorem length_legal :
    ¬ (UInt32.ofNat frame.length = 0 ∨ (UInt32.ofNat frame.length).toNat > maxMessageSize ∨
      UInt32.ofNat frame.length > c - 1 - 4) := by
  have hused := h.used_lt
  have hlen := hsized.toNat_ofNat
  rw [length_append, length_ringFrame] at hused
  rintro (hzero | hbig | hbig)
  · rw [hzero] at hlen
    have hpos := hsized.1
    change 0 = frame.length at hlen
    omega
  · rw [hlen] at hbig
    exact absurd hsized.2 (Nat.not_le.mpr hbig)
  · have hlt := UInt32.lt_iff_toNat_lt.mp hbig
    rw [toNat_maxFrame h.capacity_min, hlen] at hlt
    omega

variable (hshown : shmLengthPrefix ring c = UInt32.ofNat frame.length)
include hshown

/-- Inspecting a ring with a frame at the read cursor reports its length. -/
theorem inspectFrame_eq : shmInspectFrame ring c = (1, frame.length) := by
  have hlen := hsized.toNat_ofNat
  have hdistance := h.toNat_distance
  rw [length_append, length_ringFrame] at hdistance
  have hlong : ¬ (if ring.writePos ≥ ring.readPos then ring.writePos - ring.readPos
      else c - ring.readPos + ring.writePos) < 4 := by
    rw [UInt32.lt_iff_toNat_lt, hdistance]
    simp only [UInt32.reduceToNat]
    omega
  have hwhole : ¬ 4 + (UInt32.ofNat frame.length).toNat >
      (if ring.writePos ≥ ring.readPos then ring.writePos - ring.readPos
        else c - ring.readPos + ring.writePos).toNat := by
    rw [hdistance, hlen]
    omega
  rw [shmInspectFrame,
    if_neg (by simp [Nat.not_lt.mpr h.capacity_min, h.capacity_eq]),
    if_neg (by simp [UInt32.not_le, h.writePos_lt, h.readPos_lt])]
  simp only [if_neg hlong, hshown]
  rw [if_neg (h.length_legal hsized), if_neg hwhole, hlen]

/-- Receiving with a large enough buffer takes the frame. -/
theorem recvFrame_eq {outSize : Nat} (hout : frame.length ≤ outSize) :
    ∃ ring', shmRingRecvFrame ring c outSize = ⟨frame.length, frame, frame.length, ring'⟩ ∧
      RingSpan c ring' rest := by
  have hlen := hsized.toNat_ofNat
  -- the two steps of the read cursor: past the prefix, then past the body
  have hbehind := h
  rw [ringFrame, append_assoc] at hbehind
  have hbody := hbehind.skip (n := 4) (length_encode _ _).symm
  have hread := hbody.read_spec (n := UInt32.ofNat frame.length) (by rw [hlen]; exact hsized.1)
    (by rw [hlen, length_append]; omega)
  rw [hlen, take_left] at hread
  refine ⟨_, ?_, hbody.skip hlen⟩
  simp only [shmRingRecvFrame, h.inspectFrame_eq hsized hshown, hread, hlen]
  simp [Nat.not_lt.mpr hout]

end

end RingSpan

/-- The ring of capacity `c` holds the given frames, oldest first. -/
structure RingHolds (c : UInt32) (ring : ShmRing) (waiting : List Bytes) : Prop where
  span : RingSpan c ring (ringBytes waiting)
  capacity_max : c.toNat ≤ 2 ^ 32 - 4
  sized : ∀ frame ∈ waiting, FrameSized frame

namespace RingHolds

variable {c : UInt32} {ring ring' : ShmRing} {waiting : List Bytes}

/-- A frame that was stored joins the queue. -/
theorem snoc (h : RingHolds c ring waiting) (hsized : FrameSized frame)
    (hspan : RingSpan c ring' (ringBytes waiting ++ ringFrame frame)) :
    RingHolds c ring' (waiting ++ [frame]) :=
  ⟨(ringBytes_snoc waiting frame).symm ▸ hspan, h.capacity_max,
    forall_mem_append.mpr ⟨h.sized, forall_mem_singleton.mpr hsized⟩⟩

/-- Inspecting an empty ring reports that nothing is ready. -/
theorem inspectFrame_nil (h : RingHolds c ring []) : shmInspectFrame ring c = (0, 0) := by
  have hdistance := h.span.toNat_distance
  have hshort : (if ring.writePos ≥ ring.readPos then ring.writePos - ring.readPos
      else c - ring.readPos + ring.writePos) < 4 := by
    rw [UInt32.lt_iff_toNat_lt, hdistance]
    decide
  rw [shmInspectFrame,
    if_neg (by simp [Nat.not_lt.mpr h.span.capacity_min, h.span.capacity_eq]),
    if_neg (by simp [UInt32.not_le, h.span.writePos_lt, h.span.readPos_lt])]
  simp only [if_pos hshort]

section
variable (h : RingHolds c ring (frame :: waiting))
include h

/-- The length prefix at the read cursor is that of the oldest frame. -/
theorem lengthPrefix_cons : shmLengthPrefix ring c = UInt32.ofNat frame.length := by
  have htake : (ringBytes (frame :: waiting)).take 4 = encode 4 frame.length := by
    rw [ringBytes_cons, ringFrame, append_assoc]
    exact take_left' (length_encode _ _)
  have hmax := (h.sized frame mem_cons_self).2
  simp only [maxMessageSize] at hmax
  rw [h.span.lengthPrefix_spec (by simp; omega) (.inl h.capacity_max), htake, decode_encode_of_lt (by omega)]

/-- Inspecting a ring that holds a frame reports the length of the oldest one. -/
theorem inspectFrame_cons : shmInspectFrame ring c = (1, frame.length) :=
  RingSpan.inspectFrame_eq h.span (h.sized frame mem_cons_self) h.lengthPrefix_cons

/-- Receiving with a large enough buffer takes the oldest frame. -/
theorem recvFrame_cons {outSize : Nat} (hout : frame.length ≤ outSize) :
    ∃ ring', shmRingRecvFrame ring c outSize = ⟨frame.length, frame, frame.length, ring'⟩ ∧
      RingHolds c ring' waiting := by
  obtain ⟨ring', hrecv, hspan⟩ :=
    RingSpan.recvFrame_eq h.span (h.sized frame mem_cons_self) h.lengthPrefix_cons hout
  exact ⟨ring', hrecv, hspan, h.capacity_max, (forall_mem_cons.mp h.sized).2⟩

end

/-- Receiving from an empty ring returns zero and changes nothing. -/
theorem recvFrame_nil (h : RingHolds c ring []) (outSize : Nat) :
    shmRingRecvFrame ring c outSize = ⟨0, [], 0, ring⟩ := by
  simp [shmRingRecvFrame, h.inspectFrame_nil]

end RingHolds

/-! ### Whole runs -/

/-- A call on the ring. -/
inductive RingOp where
  | send (frame : Bytes) (notifyFd : Int)
  | recv (outSize : Nat)
deriving DecidableEq, Repr

/-- A ring with the frames its sends accepted, the frames its receives returned, and the return codes
    of the receives, in the order of the calls. -/
structure RingHistory where
  ring : ShmRing
  accepted : List Bytes
  received : List Bytes
  recvCodes : List Int
deriving DecidableEq, Repr

namespace RingHistory

/-- Before the first call. -/
def start (ring : ShmRing) : RingHistory := ⟨ring, [], [], []⟩

/-- One call. A send is accepted when it reports a size, a receive returns a frame when its code is
    positive. -/
def step (c : UInt32) (history : RingHistory) : RingOp → RingHistory
  | .send frame notifyFd =>
    let result := shmRingSendFrame history.ring c frame (UInt32.ofNat frame.length) notifyFd
    { history with
      ring := result.ring
      accepted :=
        if result.written ≠ 0 then history.accepted ++ [frame] else history.accepted }
  | .recv outSize =>
    let result := shmRingRecvFrame history.ring c outSize
    { history with
      ring := result.ring
      received :=
        if result.ret > 0 then history.received ++ [result.out.take result.outLength]
        else history.received
      recvCodes := history.recvCodes ++ [result.ret] }

def run (c : UInt32) (history : RingHistory) (ops : List RingOp) : RingHistory :=
  ops.foldl (step c) history

/-- A frame of legal size, or an output buffer that is large enough for the frame at the read cursor. -/
def Legal (c : UInt32) (history : RingHistory) : RingOp → Prop
  | .send frame _ => FrameSized frame
  | .recv outSize => (shmInspectFrame history.ring c).2 ≤ outSize

instance (c : UInt32) (history : RingHistory) (op : RingOp) : Decidable (Legal c history op) := by
  cases op <;> unfold Legal <;> infer_instance

/-- Every call of the run is legal when it is made. -/
def LegalRun (c : UInt32) : RingHistory → List RingOp → Prop
  | _, [] => True
  | history, op :: ops => Legal c history op ∧ LegalRun c (step c history op) ops

instance decidableLegalRun (c : UInt32) :
    ∀ (history : RingHistory) (ops : List RingOp), Decidable (LegalRun c history ops)
  | _, [] => isTrue trivial
  | history, op :: ops =>
    have := decidableLegalRun c (step c history op) ops
    inferInstanceAs (Decidable (Legal c history op ∧ LegalRun c (step c history op) ops))

/-- The frames accepted and not yet received are the ones in the ring, and no receive has failed. -/
structure Consistent (c : UInt32) (history : RingHistory) (waiting : List Bytes) : Prop where
  holds : RingHolds c history.ring waiting
  accepted_eq : history.accepted = history.received ++ waiting
  codes : ∀ code ∈ history.recvCodes, code ≠ -1

/-- One legal call keeps the history consistent. -/
theorem step_consistent
    (h : Consistent c history waiting) {op : RingOp} (hlegal : Legal c history op) :
    ∃ waiting', Consistent c (step c history op) waiting' := by
  cases op with
  | send frame notifyFd =>
    rcases h.holds.span.sendFrame_spec hlegal notifyFd with ⟨_, hwritten, hspan⟩ | ⟨_, hrefused⟩
    · refine ⟨waiting ++ [frame], h.holds.snoc hlegal hspan, ?_, h.codes⟩
      simp only [step, if_pos hwritten]
      rw [h.accepted_eq, append_assoc]
    · refine ⟨waiting, ?_, ?_, h.codes⟩
      · simp only [step, hrefused]
        exact h.holds
      · simp only [step, hrefused, ne_eq, not_true_eq_false, if_false]
        exact h.accepted_eq
  | recv outSize =>
    cases waiting with
    | nil =>
      have hrecv := h.holds.recvFrame_nil outSize
      refine ⟨[], ?_, ?_, ?_⟩
      · simp only [step, hrecv]
        exact h.holds
      · simp only [step, hrecv, gt_iff_lt]
        exact h.accepted_eq
      simp only [step, hrecv]
      exact forall_mem_append.mpr ⟨h.codes, by simp⟩
    | cons frame waiting =>
      have hout : frame.length ≤ outSize := by
        have hle : (shmInspectFrame history.ring c).2 ≤ outSize := hlegal
        rw [h.holds.inspectFrame_cons] at hle
        exact hle
      obtain ⟨ring', hrecv, hholds⟩ := h.holds.recvFrame_cons hout
      have hpos : (frame.length : Int) > 0 := by
        have := (h.holds.sized frame mem_cons_self).1
        omega
      refine ⟨waiting, ?_, ?_, ?_⟩
      · simp only [step, hrecv]
        exact hholds
      · simp only [step, hrecv, if_pos hpos, take_length]
        rw [h.accepted_eq, append_assoc]
        rfl
      · simp only [step, hrecv]
        exact forall_mem_append.mpr ⟨h.codes, forall_mem_singleton.mpr (by omega)⟩

/-- A legal run keeps the history consistent. -/
theorem run_consistent {ops : List RingOp} :
    ∀ {history : RingHistory} {waiting : List Bytes}, Consistent c history waiting →
      LegalRun c history ops → ∃ waiting', Consistent c (run c history ops) waiting' := by
  induction ops with
  | nil =>
    intro history waiting h _
    exact ⟨waiting, h⟩
  | cons op ops ih =>
    intro history waiting h hlegal
    obtain ⟨waiting', hstep⟩ := step_consistent h hlegal.1
    exact ih hstep hlegal.2

/-- In a consistent history a receive finds nothing exactly when all accepted frames were received. -/
theorem Consistent.recv_zero_iff
    (h : Consistent c history waiting) (outSize : Nat) :
    (shmRingRecvFrame history.ring c outSize).ret = 0 ↔ history.received = history.accepted := by
  rw [h.accepted_eq, self_eq_append_right]
  cases waiting with
  | nil => simp [h.holds.recvFrame_nil outSize]
  | cons frame waiting =>
    have hne : (shmRingRecvFrame history.ring c outSize).ret ≠ 0 := by
      by_cases hout : frame.length ≤ outSize
      · obtain ⟨ring', hrecv, _⟩ := h.holds.recvFrame_cons hout
        have hpos := (h.holds.sized frame mem_cons_self).1
        rw [hrecv]
        simp only [ne_eq, Int.natCast_eq_zero]
        omega
      · simp [shmRingRecvFrame, h.holds.inspectFrame_cons, Nat.lt_of_not_le hout]
    simp [hne]

end RingHistory

/-- The ring is a lossless, ordered channel of frames. Take either ring of a mapping set up by
    `shmInitLayout`, of any capacity from the minimum up to `2 ^ 32 - 4`, and any sequence of sends of
    frames of legal size and receives with a large enough buffer. Then no receive has reported an error;
    the frames received are, byte for byte and in order, the first of the frames accepted, and a receive
    finds nothing only when they are all of them; a further send is refused exactly when the frame with
    its length prefix exceeds the free space, and a refused send leaves the ring unchanged. -/
theorem shmRing_carries_frames (side : RingSide) (mapping : Bytes) (reqCapacity respCapacity : UInt32)
    (hreq : shmMinRingCapacity ≤ reqCapacity.toNat) (hresp : shmMinRingCapacity ≤ respCapacity.toNat)
    (hsize : calculateShmSize reqCapacity.toNat respCapacity.toNat ≤ mapping.length)
    (hmax : (side.capacity reqCapacity respCapacity).toNat ≤ 2 ^ 32 - 4) (ops : List RingOp)
    (hlegal : RingHistory.LegalRun (side.capacity reqCapacity respCapacity)
      (RingHistory.start (side.ring (shmInitLayout mapping reqCapacity respCapacity) reqCapacity
        respCapacity)) ops) :
    let c := side.capacity reqCapacity respCapacity
    let history := RingHistory.run c
      (RingHistory.start (side.ring (shmInitLayout mapping reqCapacity respCapacity) reqCapacity
        respCapacity)) ops
    let used := (shmRingAvailableRead history.ring c).toNat
    (∀ code ∈ history.recvCodes, code ≠ -1) ∧
      history.received <+: history.accepted ∧
      (∀ outSize, (shmRingRecvFrame history.ring c outSize).ret = 0 ↔
        history.received = history.accepted) ∧
      ∀ frame notifyFd, FrameSized frame →
        let result := shmRingSendFrame history.ring c frame (UInt32.ofNat frame.length) notifyFd
        (result.written = 0 ↔ 4 + frame.length > c.toNat - 1 - used) ∧
          (result.written = 0 → result.ring = history.ring) := by
  intro c history used
  have hmin : shmMinRingCapacity ≤ (side.capacity reqCapacity respCapacity).toNat := by
    cases side with
    | request => exact hreq
    | response => exact hresp
  have hstart : RingHistory.Consistent c (RingHistory.start
      (side.ring (shmInitLayout mapping reqCapacity respCapacity) reqCapacity respCapacity)) [] :=
    ⟨⟨RingSpan.of_emptyRing hmin (shmInitLayout_ring side hreq hresp hsize), hmax, by simp⟩, rfl,
      by simp [RingHistory.start]⟩
  obtain ⟨waiting, hfinal⟩ := RingHistory.run_consistent hstart hlegal
  refine ⟨hfinal.codes, ⟨waiting, hfinal.accepted_eq.symm⟩, hfinal.recv_zero_iff, ?_⟩
  intro frame notifyFd hsized
  have hused : used = (ringBytes waiting).length := hfinal.holds.span.toNat_availableRead
  rw [hused]
  rcases hfinal.holds.span.sendFrame_spec hsized notifyFd with ⟨hroom, hwritten, _⟩ | ⟨hroom, hrefused⟩
  · exact ⟨⟨fun hzero => absurd hzero hwritten, fun hfull => by omega⟩,
      fun hzero => absurd hzero hwritten⟩
  · refine ⟨⟨fun _ => by omega, fun _ => ?_⟩, fun _ => ?_⟩ <;> rw [hrefused]

/-- Three frames through the response ring of two 64-byte rings; the third one wraps. -/
def wrappingOps : List RingOp :=
  [.send (List.replicate 20 1) 3, .send (List.replicate 20 2) 3, .recv 20, .recv 64,
    .send (List.replicate 30 3) 3, .recv 30]

theorem shmRing_carries_wrapping_frames :
    let history := RingHistory.run 64 (RingHistory.start
      (RingSide.response.ring (shmInitLayout (List.replicate 208 0xFF) 64 64) 64 64)) wrappingOps
    history.accepted.length = 3 ∧ history.received = history.accepted :=
  ⟨by decide +kernel,
    ((shmRing_carries_frames .response (List.replicate 208 0xFF) 64 64 (by decide) (by decide)
      (by decide +kernel) (by decide) wrappingOps (by decide +kernel)).2.2.1 64).mp
      (by decide +kernel)⟩

/-! ### Accepted mappings -/

/-- A frame of one byte can be sent on the ring, and the next receive returns it. -/
def CarriesByte (ring : ShmRing) (c : UInt32) : Prop :=
  ∀ (byte : UInt8) (notifyFd : Int) (outSize : Nat), 1 ≤ outSize →
    (shmRingSendFrame ring c [byte] 1 notifyFd).written ≠ 0 ∧
    ∃ ring', shmRingRecvFrame (shmRingSendFrame ring c [byte] 1 notifyFd).ring c outSize =
      ⟨1, [byte], 1, ring'⟩

/-- The three upper bytes of the prefix are zero, so the capacity needs no upper bound. -/
theorem RingSpan.carriesByte (h : RingSpan c ring []) : CarriesByte ring c := by
  intro byte notifyFd outSize hout
  have hsized : FrameSized [byte] := ⟨Nat.one_pos, by simp [maxMessageSize]⟩
  have hmin := h.capacity_min
  simp only [shmMinRingCapacity] at hmin
  rcases h.sendFrame_spec hsized notifyFd with ⟨-, hwritten, hspan⟩ | ⟨hroom, -⟩
  · refine ⟨hwritten, ?_⟩
    have hframe : ringFrame [byte] = [1, 0, 0, 0, byte] :=
      congrArg (· ++ [byte]) (show encode 4 1 = [1, 0, 0, 0] by decide)
    have hshown := hspan.lengthPrefix_spec (by simp) (.inr fun i hpos hlt => by
      obtain rfl | rfl | rfl : i = 1 ∨ i = 2 ∨ i = 3 := by omega
      all_goals rw [hframe]; rfl)
    rw [hframe] at hshown
    rw [nil_append, ← append_nil (ringFrame _)] at hspan
    obtain ⟨ring', hrecv, -⟩ := hspan.recvFrame_eq hsized hshown hout
    exact ⟨ring', hrecv⟩
  · exact absurd (by simp; omega) hroom

/-- In an accepted mapping the capacities are valid and every ring with equal cursors carries data, if
    and only if the control block has no capacity below the smallest one. -/
theorem accepted_rings_carry_iff (mapping : Bytes) :
    (∀ reqCapacity respCapacity, shmValidateMappedLayout mapping = some (reqCapacity, respCapacity) →
      shmIsValidRingCapacity reqCapacity.toNat = true ∧ shmIsValidRingCapacity respCapacity.toNat = true ∧
      ∀ side : RingSide, (side.ring mapping reqCapacity respCapacity).readPos =
          (side.ring mapping reqCapacity respCapacity).writePos →
        CarriesByte (side.ring mapping reqCapacity respCapacity)
          (side.capacity reqCapacity respCapacity)) ↔
    ((shmValidateMappedLayout mapping).isSome → shmMinRingCapacity ≤ (loadWord mapping 8).toNat ∧
      shmMinRingCapacity ≤ (loadWord mapping 12).toNat) := by
  constructor
  · intro hcarry haccepted
    obtain ⟨⟨reqCapacity, respCapacity⟩, hvalid⟩ := Option.isSome_iff_exists.mp haccepted
    obtain ⟨rfl, rfl, -⟩ := of_shmValidateMappedLayout hvalid
    obtain ⟨hreq, hresp, -⟩ := hcarry _ _ hvalid
    simp only [shmIsValidRingCapacity, Bool.and_eq_true, decide_eq_true_eq] at hreq hresp
    exact ⟨hreq.1, hresp.1⟩
  · intro hmin reqCapacity respCapacity hvalid
    obtain ⟨rfl, rfl, -, hrings⟩ := of_shmValidateMappedLayout hvalid
    obtain ⟨hreq, hresp⟩ := hmin (by rw [hvalid]; rfl)
    have hvalidCapacity : ∀ capacity : UInt32, shmMinRingCapacity ≤ capacity.toNat →
        shmIsValidRingCapacity capacity.toNat = true := fun capacity hle => by
      simp [shmIsValidRingCapacity, hle, uint32Max, Nat.le_of_lt_succ capacity.toNat_lt]
    refine ⟨hvalidCapacity _ hreq, hvalidCapacity _ hresp, fun side hequal => ?_⟩
    exact (RingSpan.of_mappedRing (by cases side <;> assumption) (hrings side) hequal).carriesByte

/-- The size check raises a capacity of eight to the smallest one, the reported capacity stays at eight,
    and nothing can be sent. -/
theorem tiny_rings_are_accepted :
    let mapping := shmInitLayout (replicate 208 0) 8 8
    shmValidateMappedLayout mapping = some (8, 8) ∧ shmIsValidRingCapacity 8 = false ∧
      (RingSide.request.ring mapping 8 8).readPos = (RingSide.request.ring mapping 8 8).writePos ∧
      (shmRingSendFrame (RingSide.request.ring mapping 8 8) 8 [7] 1 0).written = 0 := by
  decide +kernel

end OmniBinder
