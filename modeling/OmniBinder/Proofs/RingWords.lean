/-
Module: OmniBinder.Proofs.RingWords
Purpose: The ring at the edges of the machine word, and a receive against a producer that may change
  everything but the read cursor between any two looks.
Trusted boundary: none
Main exports: RingReady, recvSeen_contained
-/
import OmniBinder.Proofs.RingQueue

namespace OmniBinder

open List

/-! ### Lengths and capacities near the width of the word -/

/-- The header has the capacity and the cursors are in range. -/
structure RingReady (c : UInt32) (ring : ShmRing) : Prop where
  capacity_eq : ring.capacity = c
  writePos_lt : ring.writePos < c
  readPos_lt : ring.readPos < c

/-- The number of bytes between the cursors. -/
def ringUsed (ring : ShmRing) : Nat :=
  (ring.writePos.toNat + ring.capacity.toNat - ring.readPos.toNat) % ring.capacity.toNat

section
variable {c : UInt32} {ring : ShmRing} {length : UInt32} {frame : Bytes} {notifyFd : Int}
  {seen : Nat → ShmRing} {clock : Nat → Int} {timeoutMs : UInt32} {turn turns last : Nat}

theorem RingReady.cursors (h : RingReady c ring) (hmin : shmMinRingCapacity ≤ c.toNat) :
    RingCursors c ring (ringUsed ring) := by
  have hwrite := UInt32.lt_iff_toNat_lt.mp h.writePos_lt
  have hread := UInt32.lt_iff_toNat_lt.mp h.readPos_lt
  refine ⟨hmin, h.capacity_eq, h.readPos_lt, ?_, ?_⟩
  · rw [ringUsed, h.capacity_eq]
    exact Nat.mod_lt _ (by omega)
  · rw [ringUsed, h.capacity_eq, Nat.add_mod_mod, show ring.readPos.toNat +
      (ring.writePos.toNat + c.toNat - ring.readPos.toNat) = ring.writePos.toNat + c.toNat by omega,
      Nat.add_mod_right, Nat.mod_eq_of_lt hwrite]

/-- A send reports the size of the frame exactly if that size, as a machine word, fits. -/
theorem RingReady.accepts_iff (h : RingReady c ring) (hmin : shmMinRingCapacity ≤ c.toNat) :
    (shmRingSendFrame ring c frame length notifyFd).written = 4 + length ↔
      (4 + length).toNat ≤ c.toNat - 1 - ringUsed ring := by
  have hchecks : ¬ (ring.capacity ≠ c ∨ ring.writePos ≥ c) := by
    simp [h.capacity_eq, UInt32.not_le, h.writePos_lt]
  rw [← (h.cursors hmin).toNat_availableWrite, ← UInt32.le_iff_toNat_le, ← UInt32.not_lt,
    shmRingSendFrame, if_neg hchecks]
  by_cases hfull : shmRingAvailableWrite ring c < 4 + length
  · have hne : (0 : UInt32) ≠ 4 + length := by
      intro hzero
      rw [← hzero] at hfull
      exact UInt32.not_lt_zero hfull
    simp [shmRingWriteFrame, hfull, hne]
  · simp [shmRingWriteFrame, hfull]

theorem RingReady.inspectReads_eq (h : RingReady c ring) (hmin : shmMinRingCapacity ≤ c.toNat)
    (hfour : 4 ≤ ringUsed ring) : shmInspectReads ring c = shmPrefixReads ring.readPos c := by
  rw [shmInspectReads, if_neg]
  rw [UInt32.lt_iff_toNat_lt, (h.cursors hmin).toNat_availableRead]
  exact Nat.not_lt.mpr hfour

/-- A loop that returns zero has sent the frame in its last turn. -/
theorem sendTurns_accepts
    (h : sendTurns seen clock c frame length notifyFd timeoutMs turn turns = some (0, last)) :
    (shmRingSendFrame (seen last) c frame length notifyFd).written = 4 + length := by
  induction turns generalizing turn with
  | zero => cases h
  | succ turns ih =>
    rw [sendTurns] at h
    split_ifs at h with hsent
    · cases h
      exact hsent
    · simp at h
    · exact ih h

end

/-- A ring with the given cursors. -/
def ringAt (capacity writePos readPos : Nat) : ShmRing :=
  ⟨UInt32.ofNat writePos, UInt32.ofNat readPos, UInt32.ofNat capacity, 0, []⟩

theorem ringAt_ready (capacity w r : Nat) (hcapacity : capacity < 2 ^ 32) (hw : w < capacity)
    (hr : r < capacity) : RingReady (UInt32.ofNat capacity) (ringAt capacity w r) ∧
      ringUsed (ringAt capacity w r) = (w + capacity - r) % capacity := by
  have hc := UInt32.toNat_ofNat_of_lt' hcapacity
  have hw' := UInt32.toNat_ofNat_of_lt' (hw.trans hcapacity)
  have hr' := UInt32.toNat_ofNat_of_lt' (hr.trans hcapacity)
  refine ⟨⟨rfl, UInt32.lt_iff_toNat_lt.mpr ?_, UInt32.lt_iff_toNat_lt.mpr ?_⟩, ?_⟩
  · rwa [ringAt, hw', hc]
  · rwa [ringAt, hr', hc]
  · simp only [ringUsed, ringAt, hc, hw', hr']

/-- Exactly for lengths below `2 ^ 32 - 4` and capacities below `2 ^ 32 - 2` no ring with cursors in
    range shows a wrapped sum: sends take a frame only if it fits, and the inspection reads the length
    where it lies. -/
theorem ringWords_exact_iff {capacity : Nat} (hvalid : shmIsValidRingCapacity capacity = true)
    (length : UInt32) :
    let c := UInt32.ofNat capacity
    ((∀ ring frame notifyFd, RingReady c ring →
        (shmRingSendFrame ring c frame length notifyFd).written = 4 + length →
          4 + length.toNat ≤ capacity - 1 - ringUsed ring) ∧
      (∀ seen clock frame notifyFd timeoutMs turns turn, (∀ i, RingReady c (seen i)) →
        shmRingSendFrameWithinTimeout seen clock c frame length notifyFd timeoutMs turns =
          some (0, turn) → 4 + length.toNat ≤ capacity - 1 - ringUsed (seen turn)) ∧
      ∀ ring, RingReady c ring → 4 ≤ ringUsed ring →
        shmInspectReads ring c = (List.range 4).map fun i => (ring.readPos.toNat + i) % capacity) ↔
    4 + length.toNat < 2 ^ 32 ∧ capacity + 2 < 2 ^ 32 := by
  intro c
  obtain ⟨hlow, hhigh⟩ : shmMinRingCapacity ≤ capacity ∧ capacity ≤ 2 ^ 32 - 1 := by
    simp only [shmIsValidRingCapacity, Bool.and_eq_true, decide_eq_true_eq] at hvalid
    exact hvalid
  have hc : c.toNat = capacity := UInt32.toNat_ofNat_of_lt' (show capacity < 2 ^ 32 by omega)
  have hmin : shmMinRingCapacity ≤ c.toNat := hc ▸ hlow
  simp only [shmMinRingCapacity] at hlow
  have htotal : (4 + length).toNat = (4 + length.toNat) % 2 ^ 32 := UInt32.toNat_add _ _
  constructor
  · rintro ⟨hsend, -, hreads⟩
    constructor
    · by_contra hover
      -- an empty ring takes the frame whose size wraps
      obtain ⟨hready, hused⟩ := ringAt_ready capacity 0 0 (by omega) (by omega) (by omega)
      have hlength := length.toNat_lt
      simp only [Nat.zero_add, Nat.sub_zero, Nat.mod_self] at hused
      have hfits := hsend _ [] 0 hready ((hready.accepts_iff hmin).mpr (by rw [htotal, hused, hc]; omega))
      omega
    · by_contra hover
      -- the read cursor is in the last place, and the ring is full
      obtain ⟨hready, hused⟩ := ringAt_ready capacity (capacity - 2) (capacity - 1) (by omega)
        (by omega) (by omega)
      rw [Nat.mod_eq_of_lt (by omega)] at hused
      have hread := hreads _ hready (by omega)
      rw [hready.inspectReads_eq hmin (by omega), shmPrefixReads, map_inj_left] at hread
      have hthird := hread 3 (by decide)
      rw [UInt32.toNat_mod, UInt32.toNat_add, ringAt,
        UInt32.toNat_ofNat_of_lt' (show capacity - 1 < 2 ^ 32 by omega), hc] at hthird
      change (capacity - 1 + 3) % 2 ^ 32 % capacity = _ at hthird
      rw [Nat.mod_eq_of_lt (by omega : (capacity - 1 + 3) % 2 ^ 32 < capacity),
        show capacity - 1 + 3 = 2 + capacity by omega, Nat.add_mod_right,
        Nat.mod_eq_of_lt (by omega : 2 < capacity)] at hthird
      omega
  · rintro ⟨hlength, hcapacity⟩
    rw [Nat.mod_eq_of_lt hlength] at htotal
    have hsend (ring : ShmRing) (frame : Bytes) (notifyFd : Int) (hready : RingReady c ring)
        (haccepts : (shmRingSendFrame ring c frame length notifyFd).written = 4 + length) :
        4 + length.toNat ≤ capacity - 1 - ringUsed ring := by
      rw [← htotal, ← hc]
      exact (hready.accepts_iff hmin).mp haccepts
    refine ⟨hsend, ?_, ?_⟩
    · intro seen clock frame notifyFd timeoutMs turns turn hready hsent
      rw [shmRingSendFrameWithinTimeout] at hsent
      split_ifs at hsent
      · simp at hsent
      · simp at hsent
      · exact hsend _ frame notifyFd (hready turn) (sendTurns_accepts hsent)
    · intro ring hready hfour
      have hread := UInt32.lt_iff_toNat_lt.mp hready.readPos_lt
      rw [hready.inspectReads_eq hmin hfour]
      refine map_congr_left fun i hi => ?_
      have hi := mem_range.mp hi
      rw [UInt32.toNat_mod, UInt32.toNat_add, hc, UInt32.toNat_ofNat_of_lt' (show i < 2 ^ 32 by omega),
        Nat.mod_eq_of_lt (show ring.readPos.toNat + i < 2 ^ 32 by omega)]

/-- A ring of 64 bytes that has taken a frame of ten bytes had room for it. -/
theorem short_frame_fitted : let ring : ShmRing := ⟨60, 50, 64, 0, List.replicate 64 0⟩
    (shmRingSendFrame ring 64 (List.replicate 10 1) 10 3).written = 4 + 10 ∧
      14 ≤ 63 - ringUsed ring := by
  have hsent : (shmRingSendFrame ⟨60, 50, 64, 0, List.replicate 64 0⟩ 64 (List.replicate 10 1) 10
    3).written = 4 + 10 := by decide +kernel
  exact ⟨hsent, ((ringWords_exact_iff (show shmIsValidRingCapacity 64 = true by decide) 10).mpr
    (by decide)).1 _ _ 3 ⟨rfl, by decide, by decide⟩ hsent⟩

/-- An empty ring of 64 bytes takes a frame of `2 ^ 32 - 4` bytes, and with a capacity of `2 ^ 32 - 1` the
    third byte of a length that starts in the last place is read from place 0, not 1. -/
theorem wrapped_words : let ring : ShmRing := ⟨0, 0, 64, 0, List.replicate 64 0⟩
    let length : UInt32 := 4294967292
    let full : ShmRing := ⟨4294967293, 4294967294, 4294967295, 0, []⟩
    RingReady 64 ring ∧ (shmRingSendFrame ring 64 [] length 3).written = 4 + length ∧
      shmRingSendFrameWithinTimeout (fun _ => ring) (fun _ => 0) 64 [] length 3 0 1 = some (0, 1) ∧
      63 - ringUsed ring < 4 + length.toNat ∧
      shmIsValidRingCapacity 4294967295 = true ∧ RingReady 4294967295 full ∧
      shmInspectReads full 4294967295 = [4294967294, 4294967295 % 4294967295, 0, 1] ∧
      (4294967294 + 2) % 4294967295 = 1 :=
  ⟨⟨rfl, by decide, by decide⟩, by decide +kernel, by decide +kernel, by decide, by decide,
    ⟨rfl, by decide, by decide⟩, by decide +kernel, by decide⟩

/-! ### A receive against any producer -/

section
variable {c pos n : UInt32}

theorem toNat_availableRead_lt (ring : ShmRing) (hmin : shmMinRingCapacity ≤ c.toNat) :
    (shmRingAvailableRead ring c).toNat < c.toNat := by
  by_cases hready : RingReady c ring
  · rw [(hready.cursors hmin).toNat_availableRead]
    exact (hready.cursors hmin).used_lt
  · have hzero : shmRingAvailableRead ring c = 0 := by
      unfold shmRingAvailableRead
      split_ifs with hcheck hrange
      · rfl
      · rfl
      all_goals
        simp only [not_or, not_not, ge_iff_le, UInt32.not_le] at hcheck hrange
        exact absurd ⟨hcheck.2, hrange.1, hrange.2⟩ hready
    rw [hzero]
    exact lt_of_lt_of_le (by decide) hmin

/-- An inspection that finds a frame has checked its length. -/
theorem inspectFrame_bounds (ring : ShmRing) (hmin : shmMinRingCapacity ≤ c.toNat)
    (h : 0 < (shmInspectFrame ring c).1) : 1 ≤ (shmInspectFrame ring c).2 ∧
      (shmInspectFrame ring c).2 ≤ maxMessageSize ∧ (shmInspectFrame ring c).2 ≤ c.toNat - 5 := by
  rw [← toNat_maxFrame hmin]
  unfold shmInspectFrame at h ⊢
  dsimp only at h ⊢
  generalize (if ring.writePos ≥ ring.readPos then ring.writePos - ring.readPos
    else c - ring.readPos + ring.writePos) = avail at h ⊢
  split_ifs at h ⊢ with _ _ _ hlegal
  iterate 5
    · exact absurd h (by decide)
  rw [not_or, not_or, gt_iff_lt, UInt32.not_lt] at hlegal
  exact ⟨Nat.pos_of_ne_zero fun hzero => hlegal.1 (UInt32.toNat_inj.mp hzero),
    Nat.le_of_not_lt hlegal.2.1, UInt32.le_iff_toNat_le.mp hlegal.2.2⟩

theorem inspectReads_lt (ring : ShmRing) (hpos : 0 < c.toNat) :
    ∀ index ∈ shmInspectReads ring c, index < c.toNat := by
  intro index hindex
  unfold shmInspectReads at hindex
  split_ifs at hindex
  · cases hindex
  · obtain ⟨i, _, rfl⟩ := List.mem_map.mp hindex
    rw [UInt32.toNat_mod]
    exact Nat.mod_lt _ hpos

/-- A copy of at most the capacity stays inside the data area: up to its end, then from its start. -/
theorem copyReads_lt (hpos : pos < c) (hn : n.toNat ≤ c.toNat) :
    ∀ index ∈ shmCopyReads pos c n, index < c.toNat := by
  have hlt := UInt32.lt_iff_toNat_lt.mp hpos
  have hroom := UInt32.toNat_sub_of_le c pos (UInt32.le_iff_toNat_le.mpr hlt.le)
  intro index hindex
  unfold shmCopyReads at hindex
  dsimp only at hindex
  split_ifs at hindex with hfirst
  · rw [UInt32.lt_iff_toNat_lt, hroom] at hfirst
    simp only [UInt32.sub_self, mem_append, mem_range'_1, mem_range] at hindex
    rcases hindex with hindex | hindex
    · omega
    · exact absurd hindex (Nat.not_lt_zero _)
  · rw [UInt32.not_lt] at hfirst
    rw [UInt32.toNat_sub_of_le _ _ hfirst, hroom, mem_append, mem_range'_1, mem_range] at hindex
    omega

/-- Whatever a read finds, it stays inside the data area, and one that reads all that was asked for
    advances the cursor by that. -/
theorem readSeen_contained (looks : RingLooks) (n : UInt32) (hpos : pos < c)
    (hmin : shmMinRingCapacity ≤ c.toNat) :
    (∀ index ∈ (shmRingReadSeen looks pos n c).2.2.2, index < c.toNat) ∧
      ((shmRingReadSeen looks pos n c).1 = n → n ≠ 0 →
        (shmRingReadSeen looks pos n c).2.2.1 = shmAdvancePos pos n c ∧ n.toNat < c.toNat) := by
  unfold shmRingReadSeen
  dsimp only
  have havail := toNat_availableRead_lt { looks.available with readPos := pos } hmin
  generalize shmRingAvailableRead { looks.available with readPos := pos } c = avail at havail ⊢
  have htaken : (if n < avail then n else avail).toNat < c.toNat := by
    split_ifs with hless
    · exact (UInt32.lt_iff_toNat_lt.mp hless).trans havail
    · exact havail
  generalize (if n < avail then n else avail) = taken at htaken ⊢
  split_ifs with hcheck hnone
  · exact ⟨by simp, fun h hne => absurd h.symm hne⟩
  · exact ⟨by simp, fun h hne => absurd h.symm hne⟩
  · refine ⟨copyReads_lt hpos htaken.le, ?_⟩
    rintro rfl _
    exact ⟨rfl, htaken⟩

/-- Against any producer: a receive without a frame leaves the read cursor where it was, one with a frame
    moves it behind the frame, whose length is within the bounds, and no read leaves the ring. -/
theorem recvSeen_contained (looks : RingLooks) {readPos capacity : UInt32}
    (hmin : 64 ≤ capacity.toNat) (hmax : capacity.toNat ≤ 2 ^ 32 - 4) (hread : readPos < capacity)
    (outSize : Nat) :
    let result := shmRingRecvSeen looks readPos capacity outSize
    (result.ret ≤ 0 → result.readPos = readPos) ∧
      (0 < result.ret → ∃ n : Nat, result.ret = n ∧
        result.readPos.toNat = (readPos.toNat + (4 + n)) % capacity.toNat ∧ 1 ≤ n ∧ n ≤ outSize ∧
        n ≤ maxMessageSize ∧ n ≤ capacity.toNat - 5) ∧
      ∀ index ∈ result.reads, index < capacity.toNat := by
  intro result
  have hpos : 0 < capacity.toNat := by omega
  have hplaces := inspectReads_lt { looks.inspect with readPos := readPos } hpos
  have hbounds := inspectFrame_bounds { looks.inspect with readPos := readPos } hmin
  simp only [result, shmRingRecvSeen]
  generalize shmInspectFrame { looks.inspect with readPos := readPos } capacity = found at hbounds ⊢
  obtain ⟨code, size⟩ := found
  by_cases hnone : code ≤ 0
  · rw [if_pos hnone]
    exact ⟨fun _ => rfl, fun h => absurd hnone (not_le.mpr h), hplaces⟩
  by_cases hsmall : outSize < size
  · rw [if_neg hnone, if_pos hsmall]
    exact ⟨fun _ => rfl, by simp, hplaces⟩
  rw [if_neg hnone, if_neg hsmall]
  obtain ⟨hone, hmessage, hframe⟩ := hbounds (not_le.mp hnone)
  have hsize : (UInt32.ofNat size).toNat = size :=
    UInt32.toNat_ofNat_of_lt' (show size < 2 ^ 32 by omega)
  have hadvance : (shmAdvancePos readPos 4 capacity).toNat = (readPos.toNat + 4) % capacity.toNat :=
    toNat_shmAdvancePos hread (show 4 ≤ capacity.toNat by omega)
  have hinner : shmAdvancePos readPos 4 capacity < capacity := by
    rw [UInt32.lt_iff_toNat_lt, hadvance]
    exact Nat.mod_lt _ hpos
  obtain ⟨hinside, hwhole⟩ := readSeen_contained looks (UInt32.ofNat size) hinner hmin
  generalize shmRingReadSeen looks (shmAdvancePos readPos 4 capacity) (UInt32.ofNat size) capacity =
    done at hinside hwhole ⊢
  obtain ⟨taken, out, last, copied⟩ := done
  have hall := forall_mem_append.mpr ⟨hplaces, hinside⟩
  dsimp only at hwhole ⊢
  by_cases hshort : taken ≠ UInt32.ofNat size
  · rw [if_pos hshort]
    exact ⟨fun _ => rfl, by simp, hall⟩
  rw [if_neg hshort]
  have hne : UInt32.ofNat size ≠ 0 := by
    intro hzero
    rw [hzero] at hsize
    exact absurd hsize.symm (by simpa using Nat.ne_of_gt hone)
  obtain ⟨hlast, hfits⟩ := hwhole (not_not.mp hshort) hne
  dsimp only
  rw [hsize]
  refine ⟨fun h => absurd h (by omega), fun _ => ⟨size, rfl, ?_, hone, by omega, hmessage, hframe⟩, hall⟩
  rw [hlast, toNat_shmAdvancePos hinner hfits.le, hadvance, hsize, Nat.mod_add_mod, Nat.add_assoc]

/-- A frame of two bytes is there at the inspection, and is gone when the read looks. -/
def vanishingFrame : RingLooks where
  inspect := ⟨6, 0, 64, 0, [2, 0, 0, 0] ++ List.replicate 60 7⟩
  check := ⟨6, 0, 64, 0, []⟩
  available := ⟨4, 0, 64, 0, []⟩
  copy := ⟨0, 0, 64, 0, List.replicate 64 7⟩

theorem vanishing_frame_rolled_back : (shmRingRecvSeen vanishingFrame 0 64 100).ret = -1 ∧
    (shmRingRecvSeen vanishingFrame 0 64 100).readPos = 0 :=
  ⟨by decide +kernel, (recvSeen_contained vanishingFrame (by decide) (by decide) (by decide) 100).1
    (by decide +kernel)⟩

end

end OmniBinder
