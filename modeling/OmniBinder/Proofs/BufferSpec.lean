/-
Module: OmniBinder.Proofs.BufferSpec
Purpose: What each buffer operation does to the written bytes, so that the modules above never look at
  the block or the cursors, and what each typed read of a view does: it returns what the matching write
  appended, and the number of bytes it takes depends on the value only.
Trusted boundary: none
Main exports: Buffer.Puts, readWithPrefix_consumes
-/
import Mathlib.Tactic.Linarith
import OmniBinder.Core.Message

namespace OmniBinder

variable {alloc : Allocator} {b : Buffer} {content : Bytes}

namespace Buffer

/-- Two buffers agree on everything a reader can see. -/
def SameContent (b b' : Buffer) : Prop :=
  b'.bytes = b.bytes ∧ b'.writePos = b.writePos ∧ b'.readPos = b.readPos

theorem SameContent.refl (b : Buffer) : SameContent b b := ⟨rfl, rfl, rfl⟩

theorem reserve_sameContent (alloc : Allocator) (b : Buffer) (newCapacity : Nat) :
    SameContent b (b.reserve alloc newCapacity) := by
  obtain ⟨hwrite, hread, hbytes, _⟩ := reserve_spec alloc b newCapacity
  exact ⟨hbytes, hwrite, hread⟩

/-- `ensureCapacity` keeps the content; it answers `true` exactly when the flag is clear, and then the
    room is there. -/
theorem ensureCapacity_spec (alloc : Allocator) (b : Buffer) (additional : Nat) :
    SameContent b (b.ensureCapacity alloc additional).2 ∧
      (b.ensureCapacity alloc additional).1 = !(b.ensureCapacity alloc additional).2.writeFailed ∧
      ((b.ensureCapacity alloc additional).1 = true →
        b.writePos + additional ≤ (b.ensureCapacity alloc additional).2.capacity) := by
  unfold ensureCapacity
  split_ifs with hfailed hoverflow
  · exact ⟨SameContent.refl b, by simp [hfailed], by simp⟩
  · exact ⟨⟨rfl, rfl, rfl⟩, by simp [fail], by simp⟩
  refine ⟨reserve_sameContent alloc b _, rfl, ?_⟩
  intro hok
  have hclear : (b.reserve alloc (b.writePos + additional)).writeFailed = false := by
    simpa using hok
  exact ((reserve_spec alloc b _).2.2.2 hclear).2

@[simp]
theorem bytes_put (b : Buffer) (content : Bytes) : (b.put content).bytes = b.bytes ++ content := by
  simp only [put, bytes]
  exact take_splice b.writePos_le

/-! ### Growth -/

/-- The doubling loop ends before its fuel does. -/
theorem doubleUntil_fuel (minCapacity extra : Nat) :
    ∀ (fuel : Nat) {start : Nat}, sizeMax / 2 < start * 2 ^ fuel →
      doubleUntil minCapacity (fuel + 1 + extra) start = doubleUntil minCapacity (fuel + 1) start
  | 0, start, hreach => by
    have hbig : start > sizeMax / 2 := by simpa using hreach
    rw [Nat.zero_add, Nat.add_comm 1 extra, doubleUntil, doubleUntil, if_pos hbig, if_pos hbig]
  | fuel + 1, start, hreach => by
    have hdoubled : sizeMax / 2 < start * 2 * 2 ^ fuel := by rwa [Nat.mul_assoc, ← Nat.pow_succ']
    rw [Nat.add_right_comm (fuel + 1), doubleUntil, doubleUntil, doubleUntil_fuel minCapacity extra fuel hdoubled]

/-- A capacity is doubled only while twice as much is addressable. -/
theorem doubleUntil_lt {minCapacity newCapacity : Nat} :
    ∀ {fuel start : Nat}, start < sizeMax → doubleUntil minCapacity fuel start = some newCapacity →
      newCapacity < sizeMax
  | 0, _, _, h => by simp [doubleUntil] at h
  | fuel + 1, start, hstart, h => by
    unfold doubleUntil at h
    split_ifs at h with hlt hbig
    · refine doubleUntil_lt ?_ h
      simp only [sizeMax] at hbig ⊢
      omega
    · cases h
      exact hstart

theorem one_le_nextCapacity (b : Buffer) : 1 ≤ b.nextCapacity := by
  unfold nextCapacity
  split_ifs
  · simp [defaultBufferSize]
  · omega

theorem grow_addressable (alloc : Allocator) (minCapacity : Nat) (h : b.capacity < sizeMax) :
    (b.grow alloc minCapacity).capacity < sizeMax := by
  unfold grow
  split_ifs with hbig
  · exact h
  have hstart : b.nextCapacity < sizeMax := by
    simp only [nextCapacity, defaultBufferSize, sizeMax] at hbig ⊢
    split_ifs <;> omega
  cases hdouble : doubleUntil minCapacity 65 b.nextCapacity with
  | none => exact h
  | some grown =>
    dsimp only
    split_ifs
    · rw [capacity_moveTo]
      exact max_lt (lt_of_le_of_lt b.writePos_le h) (doubleUntil_lt hstart hdouble)
    · exact h

theorem reserve_addressable (alloc : Allocator) (newCapacity : Nat) (h : b.capacity < sizeMax) :
    (b.reserve alloc newCapacity).capacity < sizeMax := by
  unfold reserve
  split_ifs
  · exact grow_addressable alloc newCapacity h
  · exact h

/-! ### Growth with memory to spare -/

/-- The doubling loop reaches what is addressable twice over. -/
theorem doubleUntil_isSome {minCapacity : Nat} (hmin : minCapacity ≤ sizeMax / 2) :
    ∀ {fuel start : Nat}, minCapacity ≤ start * 2 ^ fuel →
      ∃ newCapacity, doubleUntil minCapacity (fuel + 1) start = some newCapacity
  | 0, start, hreach => by
    refine ⟨start, ?_⟩
    rw [doubleUntil, if_neg (by omega)]
  | fuel + 1, start, hreach => by
    rw [doubleUntil]
    by_cases hlt : start < minCapacity
    · rw [if_pos hlt, if_neg (by omega)]
      apply doubleUntil_isSome hmin
      rw [pow_succ] at hreach
      linarith
    · exact ⟨start, by rw [if_neg hlt]⟩

/-- With memory to spare, reserving up to half the address space gives the room and leaves the failure
    flag as it is. -/
theorem reserve_succeeds {newCapacity : Nat} (b : Buffer) (hmax : newCapacity ≤ sizeMax / 2) :
    (b.reserve .succeeds newCapacity).writeFailed = b.writeFailed ∧
      newCapacity ≤ (b.reserve .succeeds newCapacity).capacity := by
  by_cases hroom : newCapacity > b.capacity
  · have hsmall : ¬ b.capacity > sizeMax / 2 := by omega
    have hreach : newCapacity ≤ b.nextCapacity * 2 ^ 64 := by
      have hstart := b.one_le_nextCapacity
      simp only [sizeMax] at hmax
      omega
    obtain ⟨grown, hdouble⟩ := doubleUntil_isSome hmax hreach
    rw [reserve, if_pos hroom, grow, if_neg hsmall, hdouble]
    refine ⟨rfl, ?_⟩
    change newCapacity ≤ (b.moveTo grown).capacity
    rw [capacity_moveTo]
    exact le_trans (le_of_doubleUntil hdouble) (le_max_right _ _)
  · rw [reserve, if_neg hroom]
    exact ⟨rfl, Nat.le_of_not_lt hroom⟩

theorem reserve_clear {newCapacity : Nat} (hclear : b.writeFailed = false)
    (hmax : newCapacity ≤ sizeMax / 2) :
    (b.reserve .succeeds newCapacity).writeFailed = false :=
  (reserve_succeeds b hmax).1.trans hclear

/-- With memory to spare, there is room up to half the address space. -/
theorem ensureCapacity_succeeds {additional : Nat} (hclear : b.writeFailed = false)
    (hmax : b.writePos + additional ≤ sizeMax / 2) :
    ∃ grown, b.ensureCapacity .succeeds additional = (true, grown) ∧
      grown.writeFailed = false ∧ grown.writePos = b.writePos := by
  have hgrown := reserve_clear hclear hmax
  have hwrite := (reserve_spec .succeeds b (b.writePos + additional)).1
  have hsum : ¬ additional > sizeMax - b.writePos := by omega
  refine ⟨b.reserve .succeeds (b.writePos + additional), ?_, hgrown, hwrite⟩
  simp [ensureCapacity, hclear, hsum, hgrown]

/-! ### Single writes -/

theorem eq_of_writeFailed (hfailed : b.writeFailed = true) : { b with writeFailed := true } = b := by
  cases b
  cases hfailed
  rfl

/-- What a write of the content leaves: all of it behind what was there, or the bytes as they were and the
    flag raised. Under a raised flag nothing happens. The block stays addressable, and with memory to
    spare what fits is written. -/
structure Wrote (alloc : Allocator) (fits : Prop) (content : Bytes) (b : Buffer) (result : Bool × Buffer) :
    Prop where
  readPos_eq : result.2.readPos = b.readPos
  bytes_eq : result.2.bytes = b.bytes ++ if result.1 then content else []
  flag : result.2.writeFailed = (b.writeFailed || !result.1)
  inert : b.writeFailed = true → result.2 = b ∧ (content ≠ [] → result.1 = false)
  addressable : b.capacity < sizeMax → result.2.capacity < sizeMax
  fitted : result.1 = true → fits
  succeeds : alloc = .succeeds → fits → b.writeFailed = false →
    b.writePos + content.length ≤ sizeMax / 2 → result.1 = true

section
variable {fits : Prop} {result : Bool × Buffer}

theorem Wrote.sameContent (h : Wrote alloc fits content b result) (hok : result.1 = false) :
    SameContent b result.2 := by
  have hbytes := h.bytes_eq
  rw [hok, if_neg Bool.false_ne_true, List.append_nil] at hbytes
  exact ⟨hbytes, by rw [← length_bytes, hbytes, length_bytes], h.readPos_eq⟩

theorem Wrote.congr {fits' : Prop} (h : Wrote alloc fits content b result) (hfits : fits' ↔ fits) :
    Wrote alloc fits' content b result := by
  rwa [hfits]

theorem Wrote.writePos_eq (h : Wrote alloc fits content b result) :
    result.2.writePos = b.writePos + if result.1 then content.length else 0 := by
  rw [← length_bytes, h.bytes_eq, List.length_append, length_bytes]
  split_ifs <;> rfl

theorem ensureCapacity_addressable (alloc : Allocator) (b : Buffer) (additional : Nat) :
    (b.capacity < sizeMax → (b.ensureCapacity alloc additional).2.capacity < sizeMax) ∧
      ((b.ensureCapacity alloc additional).1 = true → additional ≤ sizeMax - b.writePos) := by
  unfold ensureCapacity
  split_ifs with hfailed hoverflow
  · exact ⟨id, nofun⟩
  · exact ⟨id, nofun⟩
  · exact ⟨reserve_addressable alloc _, fun _ => Nat.le_of_not_lt hoverflow⟩

/-- A write that stays inside the block. -/
def Stored (content : Bytes) (b after : Buffer) : Prop :=
  after.bytes = b.bytes ++ content ∧ after.readPos = b.readPos ∧ after.writeFailed = false ∧
    after.capacity = b.capacity

theorem stored_put (hclear : b.writeFailed = false)
    (hroom : b.writePos + content.length ≤ b.capacity) : Stored content b (b.put content) :=
  ⟨bytes_put b content, rfl, hclear, length_splice hroom⟩

/-- Room for the content is ensured, and with the room the write cannot fail any more. -/
theorem wrote_ensured {additional : Nat} {write : Buffer → Bool × Buffer} (hfits : fits)
    (hlength : additional = content.length)
    (hwrite : ∀ grown : Buffer, grown.writeFailed = false →
      grown.writePos + additional ≤ grown.capacity → additional ≤ sizeMax - grown.writePos →
      ∃ after, write grown = (true, after) ∧ Stored content grown after) :
    Wrote alloc fits content b (Message.thenWrite (b.ensureCapacity alloc additional) write) := by
  cases hclear : b.writeFailed with
  | true =>
    rw [ensureCapacity, if_pos hclear]
    exact ⟨rfl, by simp [Message.thenWrite], by simp [Message.thenWrite, hclear], fun _ => ⟨rfl, fun _ => rfl⟩, id,
      nofun, by simp [hclear]⟩
  | false =>
    have hsucceeds : alloc = .succeeds → b.writePos + content.length ≤ sizeMax / 2 →
        (b.ensureCapacity alloc additional).1 = true := by
      rintro rfl hroom
      obtain ⟨grown, hensured, -⟩ := ensureCapacity_succeeds hclear (hlength ▸ hroom)
      rw [hensured]
    obtain ⟨⟨hbytes, hpos, hread⟩, hflag, hroom⟩ := ensureCapacity_spec alloc b additional
    obtain ⟨haddress, hmax⟩ := ensureCapacity_addressable alloc b additional
    generalize b.ensureCapacity alloc additional = ensured at *
    obtain ⟨_ | _, grown⟩ := ensured
    · exact ⟨hread, by simpa [Message.thenWrite] using hbytes,
        by simpa [Message.thenWrite, hclear] using hflag, by simp [hclear], haddress, nofun,
        fun halloc _ _ hspare => hsucceeds halloc hspare⟩
    · rw [← hpos] at hroom hmax
      obtain ⟨after, hafter, hstored, hkept, hflag', hcap⟩ :=
        hwrite grown (by simpa using hflag.symm) (hroom rfl) (hmax rfl)
      rw [Message.thenWrite, hafter]
      exact ⟨hkept.trans hread, by simp [hstored, ← hbytes], by simp [hclear, hflag'], by simp [hclear],
        fun h => hcap ▸ haddress h, fun _ => hfits, fun _ _ _ _ => rfl⟩

end

theorem wrote_writeFixed (alloc : Allocator) (b : Buffer) (content : Bytes) :
    Wrote alloc True content b (b.writeFixed alloc content) := by
  have hshape : b.writeFixed alloc content =
      Message.thenWrite (b.ensureCapacity alloc content.length) fun grown => (true, grown.put content) := by
    rw [writeFixed]
    rcases b.ensureCapacity alloc content.length with ⟨_ | _, grown⟩ <;> rfl
  rw [hshape]
  exact wrote_ensured trivial rfl fun grown hclear hroom _ => ⟨_, rfl, stored_put hclear hroom⟩

theorem wrote_writeRaw (alloc : Allocator) (b : Buffer) (content : Bytes) :
    Wrote alloc True content b (b.writeRaw alloc content) := by
  unfold writeRaw
  split_ifs with hpos
  · exact wrote_writeFixed alloc b content
  · obtain rfl : content = [] := List.length_eq_zero_iff.mp (by omega)
    exact ⟨rfl, by simp, by simp, fun _ => ⟨rfl, fun h => absurd rfl h⟩, id, fun _ => trivial,
      fun _ _ _ _ => rfl⟩

theorem writeFixed_of_room (alloc : Allocator) (content : Bytes) (hclear : b.writeFailed = false)
    (hroom : b.writePos + content.length ≤ b.capacity) (hmax : content.length ≤ sizeMax - b.writePos) :
    ∃ after, b.writeFixed alloc content = (true, after) ∧ Stored content b after := by
  refine ⟨_, ?_, stored_put hclear hroom⟩
  simp [writeFixed, ensureCapacity, reserve, hclear, Nat.not_lt.mpr hroom, Nat.not_lt.mpr hmax]

/-- A string or bytes go in as a whole: the room for both parts is ensured before the first. -/
theorem wrote_writePrefixed (alloc : Allocator) (b : Buffer) (content : Bytes) :
    Wrote alloc (content.length ≤ uint32Max - 4) (LittleEndian.encode 4 content.length ++ content) b
      (b.writePrefixed alloc content) := by
  by_cases hlong : content.length > uint32Max - 4
  · rw [writePrefixed, if_pos hlong]
    exact ⟨rfl, by simp [bytes], by simp, fun h => ⟨eq_of_writeFailed h, fun _ => rfl⟩, id, nofun,
      fun _ hfits => by omega⟩
  have hprefix : (LittleEndian.encode 4 content.length).length = 4 := LittleEndian.length_encode ..
  have hshape : b.writePrefixed alloc content =
      Message.thenWrite (b.ensureCapacity alloc (4 + content.length)) fun grown =>
        Message.thenWrite (grown.writeFixed alloc (LittleEndian.encode 4 content.length)) fun counted =>
          if content.length > 0 then counted.writeRaw alloc content else (true, counted) := by
    rw [writePrefixed, if_neg hlong, ← LittleEndian.encode_uint32]
    rcases b.ensureCapacity alloc (4 + content.length) with ⟨_ | _, grown⟩
    · rfl
    · dsimp only [Message.thenWrite, writeUint32]
      rcases grown.writeFixed alloc _ with ⟨_ | _, counted⟩ <;> rfl
  rw [hshape]
  refine wrote_ensured (Nat.le_of_not_lt hlong) (by simp) fun grown hclear hroom hmax => ?_
  obtain ⟨counted, hcount, hbytes, hread, hclear', hcap⟩ :=
    writeFixed_of_room alloc (LittleEndian.encode 4 content.length) hclear (by omega) (by omega)
  have hpos : counted.writePos = grown.writePos + 4 := by
    rw [← length_bytes, hbytes, List.length_append, length_bytes, hprefix]
  rw [hcount, Message.thenWrite]
  split_ifs with hsome
  · obtain ⟨after, hwrote, hbytes', hread', hflag, hcap'⟩ :=
      writeFixed_of_room alloc content hclear' (by omega) (by omega)
    rw [writeRaw, if_pos hsome, hwrote]
    exact ⟨after, rfl, by simp [hbytes', hbytes], hread'.trans hread, hflag, hcap'.trans hcap⟩
  · obtain rfl : content = [] := List.length_eq_zero_iff.mp (by omega)
    exact ⟨counted, rfl, by simp [hbytes], hread, hclear', hcap⟩

/-! ### Writes -/

/-- A write that succeeds has appended the content, and the content fits. It never takes more room than
    the content, and with memory to spare it succeeds if the content fits. -/
structure Puts (alloc : Allocator) (write : Buffer → Bool × Buffer) (fits : Prop) (content : Bytes) :
    Prop where
  stores : ∀ {b b'}, write b = (true, b') → fits ∧ b'.bytes = b.bytes ++ content
  atMost : ∀ b, (write b).2.writePos ≤ b.writePos + content.length
  succeeds : alloc = .succeeds → fits → ∀ {b}, b.writeFailed = false →
    b.writePos + content.length ≤ sizeMax / 2 → ∃ b', write b = (true, b') ∧ b'.writeFailed = false

namespace Puts

variable {write next : Buffer → Bool × Buffer} {fits fits' : Prop} {content' : Bytes}

theorem appends (h : Puts .succeeds write fits content) (hfits : fits) (b : Buffer)
    (hclear : b.writeFailed = false) (hroom : b.writePos + content.length ≤ sizeMax / 2) : ∃ b', write b = (true, b') ∧
      b'.writeFailed = false ∧ b'.bytes = b.bytes ++ content ∧
      b'.writePos = b.writePos + content.length := by
  obtain ⟨b', hwrite, hready⟩ := h.succeeds rfl hfits hclear hroom
  have hbytes := (h.stores hwrite).2
  refine ⟨b', hwrite, hready, hbytes, ?_⟩
  rw [← length_bytes, hbytes, List.length_append, length_bytes]

theorem congr (h : Puts alloc write fits content) (hwrite : ∀ b, next b = write b)
    (hfits : fits' ↔ fits) : Puts alloc next fits' content := by
  rwa [funext hwrite, hfits]

theorem nothing : Puts alloc (fun b => (true, b)) True [] := by
  refine ⟨fun h => ?_, fun _ => le_rfl, fun _ _ b hclear _ => ⟨b, rfl, hclear⟩⟩
  cases h
  exact ⟨trivial, (List.append_nil _).symm⟩

/-- What does not fit is refused before anything is written. -/
theorem refused {change : Buffer → Buffer} (hpos : ∀ b, (change b).writePos = b.writePos)
    (hno : ¬ fits) : Puts alloc (fun b => (false, change b)) fits content :=
  ⟨nofun, fun b => (hpos b).le.trans (Nat.le_add_right _ _), fun _ hfits => absurd hfits hno⟩

theorem andThen (h : Puts alloc write fits content) (hnext : Puts alloc next fits' content') :
    Puts alloc (fun b => Message.thenWrite (write b) next) (fits ∧ fits') (content ++ content') where
  stores {b b'} hok := by
    rcases hwrite : write b with ⟨_ | _, middle⟩
    · rw [hwrite] at hok
      cases hok
    rw [hwrite] at hok
    obtain ⟨hfits, hbytes⟩ := h.stores hwrite
    obtain ⟨hfits', hbytes'⟩ := hnext.stores hok
    exact ⟨⟨hfits, hfits'⟩, by rw [hbytes', hbytes, List.append_assoc]⟩
  atMost b := by
    have hone := h.atMost b
    rw [List.length_append]
    generalize write b = written at hone ⊢
    obtain ⟨_ | _, middle⟩ := written
    · exact hone.trans (by omega)
    · exact (hnext.atMost middle).trans (by dsimp only at hone; omega)
  succeeds halloc hfits b hclear hroom := by
    subst halloc
    rw [List.length_append] at hroom
    obtain ⟨middle, hwrite, hready, -, hpos⟩ := h.appends hfits.1 b hclear (by omega)
    rw [hwrite]
    exact hnext.succeeds rfl hfits.2 hready (by omega)

theorem of_wrote (h : ∀ b, Wrote alloc fits content b (write b)) : Puts alloc write fits content where
  stores {b b'} hok := by
    have hwrote := h b
    rw [hok] at hwrote
    exact ⟨hwrote.fitted rfl, hwrote.bytes_eq⟩
  atMost b := by
    rw [(h b).writePos_eq]
    split_ifs <;> omega
  succeeds halloc hfits b hclear hroom := by
    have hok := (h b).succeeds halloc hfits hclear hroom
    exact ⟨(write b).2, Prod.ext hok rfl, by rw [(h b).flag, hclear, hok]; rfl⟩

end Puts

theorem puts_writeFixed (alloc : Allocator) (content : Bytes) :
    Puts alloc (·.writeFixed alloc content) True content := .of_wrote (wrote_writeFixed alloc · content)

theorem puts_writeRaw (alloc : Allocator) (content : Bytes) :
    Puts alloc (·.writeRaw alloc content) True content := .of_wrote (wrote_writeRaw alloc · content)

/-- A string or bytes behind their length. -/
theorem puts_writePrefixed (alloc : Allocator) (content : Bytes) :
    Puts alloc (·.writePrefixed alloc content) (content.length ≤ uint32Max - 4)
      (LittleEndian.encode 4 content.length ++ content) := .of_wrote (wrote_writePrefixed alloc · content)

/-! ### Replacing and consuming -/

/-- A buffer that was assigned to without failing holds exactly the assigned bytes. -/
theorem assign_ok (h : (b.assign alloc content).writeFailed = false) :
    (b.assign alloc content).bytes = content := by
  by_cases hpos : content.length > 0
  · by_cases hfailed : (b.clear.reserve alloc content.length).writeFailed = true
    · simp [assign, hpos, hfailed] at h
    · simp [assign, hpos, hfailed, bytes]
  · have hnil : content = [] := List.length_eq_zero_iff.mp (by omega)
    simp [assign, clear, bytes, hnil]

theorem assign_clear (b : Buffer) (hmax : content.length ≤ sizeMax / 2) :
    (b.assign .succeeds content).writeFailed = false := by
  by_cases hpos : content.length > 0
  · have hclear : (b.clear.reserve .succeeds content.length).writeFailed = false :=
      reserve_clear rfl hmax
    simp [assign, hpos, hclear]
  · simp [assign, hpos, clear]

@[simp]
theorem bytes_clear (b : Buffer) : b.clear.bytes = [] := by simp [clear, bytes]

/-- Committing the bytes that were stored behind the write cursor appends them. -/
theorem commitWritten_store (hclear : b.writeFailed = false)
    (hroom : content.length ≤ b.capacity - b.writePos) :
    ((b.store b.writePos content).commitWritten content.length).1 = true ∧
      ((b.store b.writePos content).commitWritten content.length).2.bytes = b.bytes ++ content ∧
      ((b.store b.writePos content).commitWritten content.length).2.readPos = b.readPos ∧
      ((b.store b.writePos content).commitWritten content.length).2.writeFailed = false ∧
      ((b.store b.writePos content).commitWritten content.length).2.capacity = b.capacity := by
  have hfits : b.writePos + content.length ≤ b.data.length := by
    have := b.writePos_le
    unfold capacity at hroom
    omega
  have hcap : (b.store b.writePos content).capacity = b.capacity := length_splice hfits
  have hroom' : content.length ≤
      (b.store b.writePos content).capacity - (b.store b.writePos content).writePos := by
    rw [hcap]
    exact hroom
  have hclear' : ¬ (b.store b.writePos content).writeFailed = true := by simp [store, hclear]
  unfold commitWritten
  rw [if_neg hclear', dif_pos hroom']
  exact ⟨rfl, take_splice b.writePos_le, rfl, hclear, hcap⟩

/-- Moving the write cursor inside the block exposes the block up to the new position. -/
theorem bytes_setWritePosition (alloc : Allocator) {pos : Nat} (hread : b.readPos ≤ pos)
    (hcap : pos ≤ b.capacity) : (b.setWritePosition alloc pos).bytes = b.data.take pos := by
  rw [setWritePosition, moveWritePos, dif_neg (Nat.not_lt.mpr hread), dif_neg (Nat.not_lt.mpr hcap)]
  rfl

/-- Compacting happens inside the block. -/
theorem capacity_compact (b : Buffer) : b.compact.capacity = b.capacity := by
  have hfits : 0 + b.unread.length ≤ b.data.length := by
    have := b.writePos_le
    rw [length_unread, remaining]
    omega
  simp only [compact, capacity]
  split_ifs
  · exact length_splice hfits
  · rfl

/-- After the read cursor has been advanced, compacting leaves the unread bytes as the content. -/
theorem bytes_compact (b : Buffer) : b.compact.bytes = b.unread := by
  have hlen : b.unread.length = b.remaining := length_unread b
  unfold compact
  split_ifs with hmove
  · simp only [bytes]
    rw [← hlen, take_splice_zero]
  simp only [bytes, unread]
  by_cases hread : b.readPos = 0
  · simp [remaining, hread]
  · have hzero : b.remaining = 0 := by omega
    have hdrop : b.writePos - b.readPos = 0 := hzero
    rw [hzero, List.take_zero, eq_comm, List.drop_eq_nil_iff, List.length_take]
    omega

end Buffer

open List View LittleEndian BufferRead

/-! ### Fixed-width reads -/

/-- The read of a number of fixed width that is then converted. -/
def readFixedWidth {α : Type} (width : Nat) (convert : Nat → α) : View α := fun view =>
  if width ≤ view.length then
    some (convert (decode (view.take width)), view.drop width)
  else none

variable {α : Type} {width : Nat}

/-- Every typed read of a fixed width is of this shape. -/
theorem View.ofRead_fixed {convert : Nat → α} {read : Bytes → Nat → Nat → Option α × Nat}
    (h : ∀ data limit pos, read data limit pos = mapValue convert (readFixed width data limit pos))
    : View.ofRead read = readFixedWidth width convert := by
  funext view
  rw [View.ofRead, h, readFixedWidth]
  by_cases hle : width ≤ view.length
  · simp [readFixed, canRead, mapValue, hle]
  · simp [readFixed, canRead, mapValue, hle]

/-- Reading back an encoded number. -/
theorem readFixedWidth_encode {number : Nat} {convert : Nat → α} {value : α}
    (hrange : number < 256 ^ width) (hvalue : convert number = value) (rest : Bytes) :
    readFixedWidth width convert (encode width number ++ rest) = some (value, rest) := by
  have htake : (encode width number ++ rest).take width =
      encode width number := take_left' (length_encode width number)
  have hdrop : (encode width number ++ rest).drop width = rest :=
    drop_left' (length_encode width number)
  rw [readFixedWidth, if_pos (by simp), htake, hdrop, decode_encode_of_lt hrange, hvalue]

theorem readFixedWidth_consumes {convert : Nat → α} {view rest : Bytes} {value : α}
    (h : readFixedWidth width convert view = some (value, rest)) : Consumes width view rest := by
  unfold readFixedWidth at h
  split_ifs at h with hle
  cases h
  exact Consumes.drop hle

theorem tryReadUint8_eq : tryReadUint8 = readFixedWidth 1 UInt8.ofNat :=
  ofRead_fixed fun _ _ _ => rfl

theorem tryReadBool_eq : tryReadBool = readFixedWidth 1 fun n => UInt8.ofNat n != 0 :=
  ofRead_fixed fun _ _ _ => by
    simp [readBool, readUint8, mapValue, Function.comp_def]

theorem tryReadUint16_eq : tryReadUint16 = readFixedWidth 2 UInt16.ofNat :=
  ofRead_fixed fun _ _ _ => rfl

theorem tryReadUint32_eq : tryReadUint32 = readFixedWidth 4 UInt32.ofNat :=
  ofRead_fixed fun _ _ _ => rfl

/-- A count that was written is read modulo the range of its type. -/
theorem tryReadUint32_encode (number : Nat) (rest : Bytes) :
    tryReadUint32 (encode 4 number ++ rest) = some (UInt32.ofNat number, rest) := by
  have hmod : decode (encode 4 number) = number % 2 ^ 32 := by
    rw [decode_encode]
    rfl
  have htake : (encode 4 number ++ rest).take 4 = encode 4 number :=
    take_left' (length_encode 4 number)
  have hdrop : (encode 4 number ++ rest).drop 4 = rest :=
    drop_left' (length_encode 4 number)
  rw [tryReadUint32_eq, readFixedWidth, if_pos (by simp), htake, hdrop, hmod]
  have hcast : UInt32.ofNat (number % 2 ^ 32) = UInt32.ofNat number := by
    apply UInt32.toNat.inj
    simp
  rw [hcast]

/-! ### Prefixed reads -/

/-- The read of a length prefix and that many bytes. -/
def readWithPrefix : View Bytes := fun view =>
  match tryReadUint32 view with
  | none => none
  | some (len, rest) =>
    if len.toNat ≤ rest.length then some (rest.take len.toNat, rest.drop len.toNat) else none

theorem View.ofRead_prefixed : View.ofRead readPrefixed = readWithPrefix := by
  funext view
  rw [View.ofRead, readWithPrefix, tryReadUint32, View.ofRead, readPrefixed]
  by_cases hfour : 4 ≤ view.length
  · generalize hlen : UInt32.ofNat (decode (view.take 4)) = len
    have hread : readUint32 view view.length 0 = (some len, 4) := by
      simp [readUint32, readFixed, canRead, mapValue,
        hfour, hlen]
    rw [hread]
    -- an empty string is returned without the bounds check, which would pass
    by_cases hzero : len = 0
    · simp [hzero]
    · by_cases hroom : len.toNat ≤ view.length - 4
      · simp [hzero, hroom, hfour, canRead, drop_drop]
      · simp [hzero, hroom, canRead]
  · simp [readUint32, readFixed, canRead, mapValue, hfour]

theorem tryReadString_eq : tryReadString = readWithPrefix := ofRead_prefixed

variable {content : Bytes}

theorem readWithPrefix_encode (hlen : content.length < 2 ^ 32) (rest : Bytes) :
    readWithPrefix (encode 4 content.length ++ content ++ rest) =
      some (content, rest) := by
  have hcount : (UInt32.ofNat content.length).toNat = content.length := by
    simp only [UInt32.toNat_ofNat']
    omega
  rw [readWithPrefix, append_assoc, tryReadUint32_encode]
  simp [hcount]

theorem readWithPrefix_consumes {view rest : Bytes} (h : readWithPrefix view = some (content, rest)) :
    Consumes (4 + content.length) view rest := by
  rw [readWithPrefix, tryReadUint32_eq] at h
  split at h
  · cases h
  next len middle hread =>
    split_ifs at h with hle
    cases h
    have htaken : (middle.take len.toNat).length = len.toNat := by simp [hle]
    rw [htaken]
    exact (readFixedWidth_consumes hread).trans (Consumes.drop hle)

end OmniBinder
