/-
Module: OmniBinder.Proofs.SmByteOrder
Purpose: The bytes of a connection of the ServiceManager. What the transport has taken and what is still
  queued are the frames that were handed over, in their order, and no more than one message's worth is
  queued.
Trusted boundary: none
Main exports: Carried, frames_sent_in_order
-/
import OmniBinder.Proofs.SmSteps

namespace OmniBinder.ServiceManager

open List Option Buffer ClientConnection App

variable {entry : TraceEntry} {conn' : ClientConnection} {trace : List TraceEntry} {fd : Int}

variable {out : Outgoing} {sequence : UInt32} {frame : Bytes}

/-! ### Frames -/

theorem Outgoing.length_frame (h : out.frame sequence = some frame) :
    frame.length ≤ maxMessageSize := by
  unfold Outgoing.frame at h
  split at h
  · cases h
  split at h
  · cases h
  next output hserialize =>
  obtain ⟨hfits, hbytes⟩ := (Message.puts_serialize _ _).stores hserialize
  cases h
  rw [hbytes, show Buffer.init.bytes = [] from rfl, nil_append, Message.length_wire]
  unfold Message.Fits at hfits
  have hheader : messageHeaderSize ≤ maxMessageSize := by decide
  omega

/-- A write to a queue fails and leaves the flag set, or appends. -/
theorem writeRaw_cases (alloc : Allocator) (b : Buffer) (content : Bytes) :
    ((b.writeRaw alloc content).2.writeFailed = true ∧ (b.writeRaw alloc content).2.bytes = b.bytes) ∨
      (b.writeFailed = false ∧ (b.writeRaw alloc content).2.writeFailed = false ∧
        (b.writeRaw alloc content).2.bytes = b.bytes ++ content) := by
  have hwrote := wrote_writeRaw alloc b content
  cases hfailed : b.writeFailed with
  | true => exact .inl ⟨by rw [(hwrote.inert hfailed).1, hfailed], by rw [(hwrote.inert hfailed).1]⟩
  | false =>
    have hflag := hwrote.flag
    have hbytes := hwrote.bytes_eq
    rw [hfailed, Bool.false_or] at hflag
    cases hok : (b.writeRaw alloc content).1 with
    | false => exact .inl ⟨by rw [hflag, hok, Bool.not_false], by simpa [hok] using hbytes⟩
    | true => exact .inr ⟨rfl, by rw [hflag, hok, Bool.not_true], by simpa [hok] using hbytes⟩

/-! ### What has been sent and what is to be sent -/

section
variable {fd : Int} {trace : List TraceEntry}

theorem acceptedBytes_skip (h : entry.concerns fd = false) :
    acceptedBytes fd (entry :: trace) = acceptedBytes fd trace := by
  cases entry with
  | accepted fd' serial => exact if_neg (of_decide_eq_false h)
  | transmitted fd' content => exact if_neg (of_decide_eq_false h)
  | _ => rfl

theorem calledFrames_skip (h : entry.concerns fd = false) :
    calledFrames fd (entry :: trace) = calledFrames fd trace := by
  cases entry with
  | accepted fd' serial => exact if_neg (of_decide_eq_false h)
  | handed fd' sequence out => exact if_neg (of_decide_eq_false h)
  | _ => rfl

theorem acceptedBytes_transmitted (content : Bytes) :
    acceptedBytes fd (.transmitted fd content :: trace) = acceptedBytes fd trace ++ content :=
  if_pos rfl

theorem calledFrames_transmitted (fd' : Int) (content : Bytes) :
    calledFrames fd (.transmitted fd' content :: trace) = calledFrames fd trace := rfl

theorem calledFrames_handed (h : out.frame sequence = some frame) :
    calledFrames fd (.handed fd sequence out :: trace) = calledFrames fd trace ++ frame := by
  rw [calledFrames, if_pos rfl, h]
  rfl

end

/-- The state of a queue. That nothing is lost is claimed only under `kept`, and only while no write to
    the queue has failed; a write fails only behind bytes that are still to be sent. -/
structure Carried (kept : Prop) (trace : List TraceEntry) (fd : Int) (conn : ClientConnection) :
    Prop where
  bytes_eq : kept → conn.sendBuffer.writeFailed = false →
    acceptedBytes fd trace ++ conn.unsent = calledFrames fd trace
  length_le : conn.unsent.length ≤ maxMessageSize
  armed : conn.writeEvents = true ↔ conn.unsent ≠ []
  failed : conn.sendBuffer.writeFailed = true → conn.unsent ≠ []
  offset_le : conn.sendOffset ≤ conn.sendBuffer.size

theorem ClientConnection.length_unsent (conn : ClientConnection) :
    conn.unsent.length = conn.sendBuffer.size - conn.sendOffset := by
  rw [unsent, length_drop, length_bytes]
  rfl

variable {conn : ClientConnection}

theorem ClientConnection.unsent_eq_nil :
    conn.unsent = [] ↔ ¬ conn.sendOffset < conn.sendBuffer.size := by
  rw [← length_eq_zero_iff, conn.length_unsent]
  omega

theorem SameQueue.unsent_eq (h : SameQueue conn conn') :
    conn'.unsent = conn.unsent := by
  rw [unsent, h.sendBuffer_eq, h.sendOffset_eq]
  rfl

variable {kept : Prop}

theorem Carried.of_same
    (h : Carried kept trace fd conn) (hsame : SameQueue conn conn') : Carried kept trace fd conn' := by
  refine ⟨fun hkept hok => ?_, ?_, ?_, ?_, ?_⟩
  · rw [hsame.unsent_eq]
    exact h.bytes_eq hkept (hsame.sendBuffer_eq ▸ hok)
  · rw [hsame.unsent_eq]
    exact h.length_le
  · rw [hsame.unsent_eq, hsame.writeEvents_eq]
    exact h.armed
  · rw [hsame.unsent_eq, hsame.sendBuffer_eq]
    exact h.failed
  · rw [hsame.sendBuffer_eq, hsame.sendOffset_eq]
    exact h.offset_le

theorem Carried.of_drained (hunsent : conn.unsent = []) (hevents : conn.writeEvents = false)
    (hok : conn.sendBuffer.writeFailed = false) (hoffset : conn.sendOffset ≤ conn.sendBuffer.size)
    (hbytes : kept → acceptedBytes fd trace = calledFrames fd trace) : Carried kept trace fd conn := by
  refine ⟨fun hkept _ => ?_, ?_, ?_, fun hfailed => ?_, hoffset⟩
  · rw [hunsent, append_nil]
    exact hbytes hkept
  · rw [hunsent]
    exact Nat.zero_le _
  · simp [hunsent, hevents]
  · cases hok.symm.trans hfailed

theorem queueRule_carried (kept : Prop) : QueueRule (Carried kept) where
  skip entry hentry h := by
    refine { h with bytes_eq := fun hkept hok => ?_ }
    rw [acceptedBytes_skip hentry, calledFrames_skip hentry]
    exact h.bytes_eq hkept hok
  same hsame h := h.of_same hsame.toSameQueue
  greeted _ _ _ _ h := h.of_same ⟨rfl, rfl, rfl⟩
  fresh serial := by
    refine .of_drained rfl rfl rfl le_rfl fun _ => ?_
    rw [acceptedBytes, calledFrames, if_pos rfl, if_pos rfl]
  unserialized hframe h := by
    refine { h with bytes_eq := fun hkept hok => ?_ }
    rw [calledFrames, if_pos rfl, hframe, getD_none, append_nil]
    exact h.bytes_eq hkept hok
  queued := by
    intro trace fd conn sequence out frame hframe hpending hroom h
    have hsome : conn.unsent ≠ [] := fun hnil => unsent_eq_nil.mp hnil hpending
    rcases writeRaw_cases .succeeds conn.sendBuffer frame with ⟨hfailed, hbytes⟩ | ⟨hok, hwritten, hbytes⟩
    · -- the frame is lost, and the flag says so
      have hunsent : unsent { conn with
          sendBuffer := (conn.sendBuffer.writeRaw .succeeds frame).2, writeEvents := true } =
            conn.unsent := by
        rw [unsent, hbytes]
        rfl
      refine ⟨fun _ hok => ?_, ?_, ?_, fun _ => ?_, ?_⟩
      · rw [hfailed] at hok
        cases hok
      · exact hunsent ▸ h.length_le
      · rw [hunsent]
        exact ⟨fun _ => hsome, fun _ => rfl⟩
      · exact hunsent ▸ hsome
      · rw [Buffer.size, ← length_bytes, hbytes, length_bytes]
        exact h.offset_le
    · have hunsent : unsent { conn with
          sendBuffer := (conn.sendBuffer.writeRaw .succeeds frame).2, writeEvents := true } =
            conn.unsent ++ frame := by
        rw [unsent, hbytes]
        refine drop_append_of_le_length ?_
        rw [length_bytes]
        exact h.offset_le
      refine ⟨fun hkept _ => ?_, ?_, ?_, fun hfailed => ?_, ?_⟩
      · rw [hunsent, calledFrames_handed hframe, ← append_assoc]
        exact congrArg (· ++ frame) (h.bytes_eq hkept hok)
      · rw [hunsent, length_append, conn.length_unsent]
        exact hroom
      · rw [hunsent]
        exact ⟨fun _ hnil => hsome (append_eq_nil_iff.mp hnil).1, fun _ => rfl⟩
      · exact absurd (hwritten.symm.trans hfailed) Bool.false_ne_true
      · rw [Buffer.size, ← length_bytes, hbytes, length_append, length_bytes]
        exact Nat.le_add_right_of_le h.offset_le
  sent := by
    intro trace fd conn sequence out frame hframe hempty h
    refine { h with bytes_eq := fun hkept hok => ?_ }
    have hnil := unsent_eq_nil.mpr hempty
    have hbytes := h.bytes_eq hkept hok
    rw [hnil, append_nil] at hbytes
    rw [acceptedBytes_transmitted, hnil, append_nil, calledFrames_transmitted,
      calledFrames_handed hframe]
    exact congrArg (· ++ frame) hbytes
  partly := by
    intro trace fd conn sequence out frame count hframe hempty hless h
    have hlength := Outgoing.length_frame hframe
    have hnil := unsent_eq_nil.mpr hempty
    have hok : conn.sendBuffer.writeFailed = false := by
      rw [← Bool.not_eq_true]
      exact fun hfailed => h.failed hfailed hnil
    have hassigned : (conn.sendBuffer.assign .succeeds (frame.drop count)).writeFailed = false := by
      refine assign_clear _ (le_trans ?_ (show maxMessageSize ≤ sizeMax / 2 by decide))
      rw [length_drop]
      omega
    have hunsent : unsent { conn with
        sendBuffer := conn.sendBuffer.assign .succeeds (frame.drop count)
        sendOffset := 0
        writeEvents := true } = frame.drop count := by
      rw [unsent, assign_ok hassigned, drop_zero]
    have hsome : frame.drop count ≠ [] := by
      rw [Ne, drop_eq_nil_iff]
      omega
    refine ⟨fun hkept _ => ?_, ?_, ?_, fun _ => ?_, Nat.zero_le _⟩
    · have hbytes := h.bytes_eq hkept hok
      rw [hnil, append_nil] at hbytes
      rw [hunsent, acceptedBytes_transmitted, append_assoc, take_append_drop,
        calledFrames_transmitted, calledFrames_handed hframe]
      exact congrArg (· ++ frame) hbytes
    · rw [hunsent, length_drop]
      omega
    · rw [hunsent]
      exact ⟨fun _ => hsome, fun _ => rfl⟩
    · rw [hunsent]
      exact hsome

variable {size : Nat}

/-! ### Flushing -/

theorem flushLoop_spec (plan : List SendOutcome) {offset : Nat} (h : offset ≤ size) :
    offset ≤ (flushLoop size plan offset).2.1 ∧ (flushLoop size plan offset).2.1 ≤ size := by
  induction plan generalizing offset with
  | nil => exact ⟨h, le_rfl⟩
  | cons outcome plan ih =>
    by_cases hleft : offset < size
    · cases outcome with
      | failed =>
        simp only [flushLoop, if_pos hleft]
        exact ⟨le_rfl, h⟩
      | accepted count =>
        simp only [flushLoop, if_pos hleft]
        split_ifs
        · exact ⟨le_rfl, h⟩
        · have hrest : offset + min count (size - offset) ≤ size := by omega
          exact ⟨(Nat.le_add_right _ _).trans (ih hrest).1, (ih hrest).2⟩
    · simp only [flushLoop, if_neg hleft]
      exact ⟨le_rfl, h⟩

/-- What a flush does to the connection: the transport fails and the connection is closed, some bytes are
    left, or the queue runs empty. -/
inductive Flushed (s : App) (fd : Int) (conn : ClientConnection) (offset : Nat) : App → Prop where
  | failed : Flushed s fd conn offset ((s.setClient fd { conn with sendOffset := offset }).closeClient fd true)
  | partly : offset < conn.sendBuffer.size →
      Flushed s fd conn offset (s.setClient fd { conn with sendOffset := offset, writeEvents := true })
  | drained : offset = conn.sendBuffer.size →
      Flushed s fd conn offset (s.setClient fd
        { conn with sendBuffer := conn.sendBuffer.clear, sendOffset := 0, writeEvents := false })

variable {s : App}

theorem onClientWritable_cases (hconn : s.clients[fd]? = some conn)
    (hoffset : conn.sendOffset ≤ conn.sendBuffer.size) :
    ∃ offset plan, conn.sendOffset ≤ offset ∧ offset ≤ conn.sendBuffer.size ∧
      Flushed ({ s with plan }.record (.transmitted fd
        ((conn.sendBuffer.bytes.take offset).drop conn.sendOffset))) fd conn offset
        (s.onClientWritable fd) := by
  obtain ⟨hfrom, hto⟩ := flushLoop_spec s.plan hoffset
  refine ⟨_, (flushLoop conn.sendBuffer.size s.plan conn.sendOffset).2.2, hfrom, hto, ?_⟩
  unfold onClientWritable
  simp only [hconn]
  split_ifs with hfailed hleft
  · exact .failed
  · exact .partly hleft
  · exact .drained (Nat.le_antisymm hto (Nat.not_lt.mp hleft))

theorem carried_onClientWritable (fd : Int) (h : HoldsAt (Carried kept) s)
    (hok : kept → ∀ conn, s.clients[fd]? = some conn → conn.sendBuffer.writeFailed = false) :
    HoldsAt (Carried kept) (s.onClientWritable fd) := by
  have hrule := queueRule_carried kept
  cases hconn : s.clients[fd]? with
  | none =>
    rw [onClientWritable, hconn]
    exact h
  | some conn =>
    have hold := h fd conn hconn
    obtain ⟨offset, plan, hfrom, hto, hdone⟩ := onClientWritable_cases hconn hold.offset_le
    have hbut : HoldsBut (Carried kept) fd ({ s with plan }.record (.transmitted fd
        ((conn.sendBuffer.bytes.take offset).drop conn.sendOffset))) :=
      hrule.recordFor (fun fd' hne => by simp [TraceEntry.concerns, Ne.symm hne]) (h.but fd)
    -- what is sent now and what is left were what was left before
    have hcut : (conn.sendBuffer.bytes.take offset).drop conn.sendOffset ++
        conn.sendBuffer.bytes.drop offset = conn.unsent := by
      rw [unsent, ← drop_append_of_le_length, take_append_drop]
      rw [length_take, length_bytes]
      exact le_min hfrom hold.offset_le
    generalize s.onClientWritable fd = s' at hdone ⊢
    cases hdone with
    | failed =>
      refine hrule.closeClient fd true fun fd' conn' hne hconn' => ?_
      rw [setClient, Table.getElem?_insert_of_ne _ (Ne.symm hne)] at hconn'
      exact hbut fd' conn' hne hconn'
    | partly hleft =>
      have hunsent : unsent
          { conn with sendOffset := offset, writeEvents := true } =
            conn.sendBuffer.bytes.drop offset := rfl
      have hsome : conn.sendBuffer.bytes.drop offset ≠ [] := by
        rw [Ne, drop_eq_nil_iff, length_bytes]
        exact Nat.not_le.mpr hleft
      refine hbut.setClient ⟨fun hkept hflag => ?_, ?_, ?_, fun _ => ?_, hto⟩
      · rw [hunsent, record, acceptedBytes_transmitted, append_assoc, hcut,
          calledFrames_transmitted]
        exact hold.bytes_eq hkept hflag
      · refine le_trans ?_ hold.length_le
        rw [hunsent, ← hcut, length_append]
        exact Nat.le_add_left _ _
      · rw [hunsent]
        exact ⟨fun _ => hsome, fun _ => rfl⟩
      · exact hsome
    | drained hall =>
      have hunsent : unsent
          { conn with sendBuffer := conn.sendBuffer.clear, sendOffset := 0, writeEvents := false } =
            [] := by
        rw [unsent, bytes_clear, drop_nil]
      have hrest : conn.sendBuffer.bytes.drop offset = [] := by
        rw [drop_eq_nil_iff, length_bytes]
        exact hall.ge
      refine hbut.setClient (.of_drained hunsent rfl rfl le_rfl fun hkept => ?_)
      rw [hrest, append_nil] at hcut
      rw [record, acceptedBytes_transmitted, hcut, calledFrames_transmitted]
      exact hold.bytes_eq hkept (hok hkept conn hconn)

/-! ### Runs -/

theorem App.written_iff : s.written = true ↔
    ∀ (fd : Int) (conn : ClientConnection), s.clients[fd]? = some conn →
      conn.sendBuffer.writeFailed = false := by
  rw [written, List.all_eq_true]
  constructor
  · intro h fd conn hconn
    simpa [Buffer.writeOk] using h (fd, conn) (Table.mem_toList.mpr hconn)
  · rintro h ⟨fd, conn⟩ hmem
    simp [Buffer.writeOk, h fd conn (Table.mem_toList.mp hmem)]

/-- The bytes that the transport has taken for a connection, followed by the unsent part of its queue,
    are the frames of the messages handed over for it since it was accepted, in their order. The unsent
    part is no longer than a message may be, and write events are armed exactly while there is one. No
    write to a queue is to fail for want of memory. -/
theorem frames_sent_in_order (heartbeatTimeoutMs smIncarnationId : UInt32)
    (steps : List (SendStep × List SendOutcome))
    (hmemory : Machine.RunsUnder App.perform (fun s step => (s.perform step).written = true)
      (App.init heartbeatTimeoutMs smIncarnationId) steps) :
    let s := Machine.run App.perform (App.init heartbeatTimeoutMs smIncarnationId) steps
    ∀ (fd : Int) (conn : ClientConnection), s.clients[fd]? = some conn →
      acceptedBytes fd s.trace ++ conn.unsent = calledFrames fd s.trace ∧
        conn.unsent.length ≤ maxMessageSize ∧ (conn.writeEvents = true ↔ conn.unsent ≠ []) := by
  intro s fd conn hconn
  have hinvariant : HoldsAt (Carried True) s ∧ s.written = true := by
    refine Machine.run_invariant (P := fun s => HoldsAt (Carried True) s ∧ s.written = true)
      (fun s step hs hwritten => ⟨?_, hwritten⟩) hmemory
      ⟨holdsAt_init _ _ _, written_iff.mpr
        (holdsAt_init (fun _ _ conn => conn.sendBuffer.writeFailed = false) _ _)⟩
    refine (queueRule_carried True).perform hs.1 fun fd _ => ?_
    refine carried_onClientWritable (s := { s with plan := step.2 }) fd hs.1 fun _ conn hconn => ?_
    exact written_iff.mp hs.2 fd conn hconn
  have hcarried := hinvariant.1 fd conn hconn
  exact ⟨hcarried.bytes_eq trivial (written_iff.mp hinvariant.2 fd conn hconn),
    hcarried.length_le, hcarried.armed⟩

/-- A message that is sent in two parts, the second of them by a flush. -/
def sentInParts : List (SendStep × List SendOutcome) :=
  [(.event (.accept 5), []),
    (.sendMessage 5 1 (.boolReply MessageType.unregisterReply true), [.accepted 3]),
    (.sendMessage 5 2 (.boolReply MessageType.publishTopicReply false), []),
    (.event (.writable 5), [.accepted 20, .accepted 0])]

theorem frames_sent_in_parts :
    let s := Machine.run App.perform (App.init 0 0) sentInParts
    ∃ conn : ClientConnection, s.clients[(5 : Int)]? = some conn ∧ conn.unsent.length = 11 ∧
      acceptedBytes 5 s.trace ++ conn.unsent = calledFrames 5 s.trace ∧ conn.writeEvents = true := by
  intro s
  have hmemory : Machine.RunsUnder perform (fun s step => (s.perform step).written = true)
      (App.init 0 0) sentInParts := by decide +kernel
  have hleft : (s.clients[(5 : Int)]?).map (fun conn => conn.unsent.length) = some 11 := by
    decide +kernel
  obtain ⟨conn, hconn, hlength⟩ := map_eq_some_iff.mp hleft
  obtain ⟨hbytes, -, harmed⟩ := frames_sent_in_order 0 0 sentInParts hmemory 5 conn hconn
  refine ⟨conn, hconn, hlength, hbytes, harmed.mpr fun hnil => ?_⟩
  rw [hnil] at hlength
  cases hlength

/-! ### The part that was sent already -/

/-- A connection with a frame to be sent is handed it at the end of its queue when there is room. -/
theorem sendMessage_pending (close : Int → App → App)
    (hconn : s.clients[fd]? = some conn) (hframe : out.frame sequence = some frame)
    (hpending : conn.sendOffset < conn.sendBuffer.size)
    (hroom : conn.sendBuffer.size - conn.sendOffset + frame.length ≤ maxMessageSize) :
    s.sendMessage close fd sequence out = (s.record (.handed fd sequence out)).setClient fd
      { conn with
        sendBuffer := (conn.sendBuffer.writeRaw .succeeds frame).2
        writeEvents := true } := by
  unfold Outgoing.frame at hframe
  split at hframe
  · cases hframe
  next msg hmessage =>
  split at hframe
  · cases hframe
  · next output hserialize =>
    cases hframe
    simp only [sendMessage, hconn, hmessage, hserialize, sendFrame, if_pos hpending,
      if_neg (Nat.not_lt.mpr hroom)]

/-- A message, and then a flush that takes all but one byte. -/
def slowRound (fd : Int) (out : Outgoing) (length : Nat) : List (SendStep × List SendOutcome) :=
  [(.sendMessage fd 0 out, []), (.event (.writable fd), [.accepted length, .accepted 0])]

/-- One byte is to be sent, and the buffer has a given size. -/
structure OneLeft (s : App) (fd : Int) (size : Nat) (conn : ClientConnection) : Prop where
  conn_eq : s.clients[fd]? = some conn
  left : conn.sendBuffer.size = conn.sendOffset + 1
  size_eq : conn.sendBuffer.size = size
  clear : conn.sendBuffer.writeFailed = false

theorem oneLeft_slowRound (h : OneLeft s fd size conn)
    (hframe : out.frame 0 = some frame) (hsome : 0 < frame.length)
    (hshort : 1 + frame.length ≤ maxMessageSize) (hroom : size + frame.length ≤ sizeMax / 2) :
    ∃ conn', OneLeft (Machine.run perform s (slowRound fd out frame.length)) fd
      (size + frame.length) conn' := by
  obtain ⟨hconn, hleft, hsize, hclear⟩ := h
  have hfits : conn.sendBuffer.writePos + frame.length ≤ sizeMax / 2 := by
    rw [show conn.sendBuffer.writePos = size from hsize]
    exact hroom
  obtain ⟨buf, hwrite, hready, -, hpos⟩ :=
    (puts_writeRaw .succeeds frame).appends trivial conn.sendBuffer hclear hfits
  have hraw : (conn.sendBuffer.writeRaw .succeeds frame).2 = buf := by rw [hwrite]
  have hgrown : buf.size = conn.sendOffset + (1 + frame.length) := by
    rw [Buffer.size, hpos, show conn.sendBuffer.writePos = conn.sendOffset + 1 from hleft, Nat.add_assoc]
  -- the message is queued
  set s₁ := ({ s with plan := [] }.record (.handed fd 0 out)).setClient fd
    { conn with sendBuffer := buf, writeEvents := true } with hs₁
  have hqueued : s.perform (.sendMessage fd 0 out, []) = s₁ := by
    rw [hs₁, ← hraw]
    refine sendMessage_pending (s := { s with plan := [] }) _ hconn hframe (by omega) ?_
    omega
  have hconn₁ : s₁.clients[fd]? = some { conn with sendBuffer := buf, writeEvents := true } := by
    rw [hs₁, setClient, Table.getElem?_insert, if_pos rfl]
  -- and flushed but for one byte
  have hflush : flushLoop buf.size [.accepted frame.length, .accepted 0] conn.sendOffset =
      (true, conn.sendOffset + frame.length, []) := by
    have hfirst : conn.sendOffset < buf.size := by omega
    have htaken : min frame.length (buf.size - conn.sendOffset) = frame.length := by omega
    have hsecond : conn.sendOffset + frame.length < buf.size := by omega
    have hnone : frame.length ≠ 0 := by omega
    simp only [flushLoop, if_pos hfirst, htaken, if_neg hnone, if_pos hsecond, Nat.zero_min, if_true]
  have hless : conn.sendOffset + frame.length < buf.size := by omega
  refine ⟨{ conn with
    sendBuffer := buf, sendOffset := conn.sendOffset + frame.length, writeEvents := true },
    ?_, ?_, ?_, hready⟩
  · rw [slowRound, Machine.run_cons, Machine.run_cons, Machine.run_nil, hqueued]
    simp only [App.perform, step, handle, onClientWritable, hconn₁, hflush, Bool.not_true,
      Bool.false_eq_true, if_false, if_pos hless]
    rw [setClient, Table.getElem?_insert, if_pos rfl]
  · change buf.size = conn.sendOffset + frame.length + 1
    omega
  · change buf.size = size + frame.length
    omega

/-- A peer that never takes the last byte. -/
def slowRounds (fd : Int) (out : Outgoing) (length : Nat) : Nat → List (SendStep × List SendOutcome)
  | 0 => []
  | rounds + 1 => slowRound fd out length ++ slowRounds fd out length rounds

theorem oneLeft_slowRounds (hframe : out.frame 0 = some frame) (hsome : 0 < frame.length)
    (hshort : 1 + frame.length ≤ maxMessageSize) (rounds : Nat) (h : OneLeft s fd size conn)
    (hroom : size + rounds * frame.length ≤ sizeMax / 2) :
    ∃ conn', OneLeft (Machine.run perform s (slowRounds fd out frame.length rounds)) fd
      (size + rounds * frame.length) conn' := by
  induction rounds generalizing s size conn with
  | zero => exact ⟨conn, by simpa [slowRounds] using h⟩
  | succ rounds ih =>
    have hsum : size + (rounds + 1) * frame.length = size + frame.length + rounds * frame.length := by
      rw [Nat.add_mul, Nat.one_mul]
      omega
    rw [hsum] at hroom ⊢
    obtain ⟨conn₁, hround⟩ := oneLeft_slowRound h hframe hsome hshort (by omega)
    rw [slowRounds, Machine.run_append]
    exact ih hround hroom

/-- With one byte left to be sent, the buffer of a connection that its peer drains slowly has grown
    beyond twice the size of a message. -/
theorem slow_peer_grows_buffer : ∃ steps, ∃ conn : ClientConnection,
    (Machine.run App.perform (App.init 0 0) steps).clients[(5 : Int)]? = some conn ∧
      conn.unsent.length = 1 ∧ 2 * maxMessageSize < conn.sendBuffer.size := by
  obtain ⟨frame, hframe, hlength⟩ : ∃ frame,
      (Outgoing.boolReply MessageType.unregisterReply true).frame 0 = some frame ∧
        frame.length = 17 := map_eq_some_iff.mp (by decide +kernel)
  set start : List (SendStep × List SendOutcome) :=
    [(.event (.accept 5), []),
      (.sendMessage 5 0 (.boolReply MessageType.unregisterReply true), [.accepted 16])] with hstart
  have hfirst : ((Machine.run perform (App.init 0 0) start).clients[(5 : Int)]?).map
      (fun conn => (conn.sendBuffer.size, conn.sendOffset, conn.sendBuffer.writeFailed)) =
        some (1, 0, false) := by decide +kernel
  obtain ⟨conn, hconn, hqueue⟩ := map_eq_some_iff.mp hfirst
  simp only [Prod.mk.injEq] at hqueue
  obtain ⟨hsize, hoffset, hclear⟩ := hqueue
  obtain ⟨conn', hdone⟩ := oneLeft_slowRounds hframe (by omega)
    (by rw [hlength]; decide) (2 * maxMessageSize)
    ⟨hconn, by omega, hsize, hclear⟩ (by rw [hlength]; decide)
  refine ⟨start ++ slowRounds 5 (.boolReply MessageType.unregisterReply true) frame.length
    (2 * maxMessageSize), conn', ?_, ?_, ?_⟩
  · rw [Machine.run_append]
    exact hdone.conn_eq
  · rw [conn'.length_unsent, hdone.left]
    omega
  · rw [hdone.size_eq, hlength]
    omega

/-- The step flushes the queue of a connection. -/
def SendStep.flushes (fd : Int) : SendStep → Bool
  | .event (.writable fd') => fd' = fd
  | _ => false

/-- No connection but one that is flushed has been sent more of its buffer than a message may be
    long. -/
def App.prefixShort (s : App) (step : SendStep × List SendOutcome) : Bool :=
  s.clients.toList.all fun (fd, conn) => step.1.flushes fd || conn.sendOffset ≤ maxMessageSize

/-- Sending leaves the offset where it is, or starts a new buffer. -/
theorem queueRule_offset : QueueRule fun _ _ conn => conn.sendOffset ≤ maxMessageSize where
  skip _ _ h := h
  same hsame h := hsame.sendOffset_eq ▸ h
  greeted _ _ _ _ h := h
  fresh _ := Nat.zero_le _
  unserialized _ h := h
  queued _ _ _ h := h
  sent _ _ h := h
  partly _ _ _ _ := Nat.zero_le _

theorem Carried.size_le (h : Carried kept trace fd conn)
    (hoffset : conn.sendOffset ≤ maxMessageSize) : conn.sendBuffer.size ≤ 2 * maxMessageSize := by
  have hlength := h.length_le
  rw [conn.length_unsent] at hlength
  omega

/-- A flush makes no buffer larger, and when it closes its connection the others are short enough. -/
theorem size_onClientWritable (h : HoldsAt (Carried False) s)
    (hsize : HoldsAt (fun _ _ conn => conn.sendBuffer.size ≤ 2 * maxMessageSize) s)
    (hoffset : HoldsBut (fun _ _ conn => conn.sendOffset ≤ maxMessageSize) fd s) :
    HoldsAt (fun _ _ conn => conn.sendBuffer.size ≤ 2 * maxMessageSize) (s.onClientWritable fd) := by
  have hcarried : HoldsAt (Carried False) (s.onClientWritable fd) :=
    carried_onClientWritable fd h fun hfalse => hfalse.elim
  cases hconn : s.clients[fd]? with
  | none =>
    rw [onClientWritable, hconn]
    exact hsize
  | some conn =>
    obtain ⟨offset, plan, -, -, hdone⟩ := onClientWritable_cases hconn (h fd conn hconn).offset_le
    generalize s.onClientWritable fd = s' at hdone hcarried ⊢
    cases hdone with
    | failed =>
      intro fd' conn' hconn'
      refine (hcarried fd' conn' hconn').size_le (queueRule_offset.closeClient fd true ?_ fd' conn' hconn')
      intro fd' conn' hne hconn'
      rw [setClient, Table.getElem?_insert_of_ne _ (Ne.symm hne)] at hconn'
      exact hoffset fd' conn' hne hconn'
    | partly _ => exact HoldsBut.setClient (hsize.but fd) (hsize fd conn hconn)
    | drained _ => exact HoldsBut.setClient (hsize.but fd) (Nat.zero_le _)

/-- As long as a message is queued only behind a buffer of which no more has been sent than a message may
    be long, no buffer exceeds twice that length. -/
theorem buffer_bounded_with_short_prefix (heartbeatTimeoutMs smIncarnationId : UInt32)
    (steps : List (SendStep × List SendOutcome))
    (hshort : Machine.RunsUnder App.perform (fun s step => s.prefixShort step = true)
      (App.init heartbeatTimeoutMs smIncarnationId) steps) (fd : Int) (conn : ClientConnection)
    (hconn : (Machine.run App.perform (App.init heartbeatTimeoutMs smIncarnationId) steps).clients[fd]? =
      some conn) : conn.sendBuffer.size ≤ 2 * maxMessageSize := by
  set s := Machine.run perform (App.init heartbeatTimeoutMs smIncarnationId) steps
  suffices hinvariant : HoldsAt (Carried False) s ∧
      HoldsAt (fun _ _ conn => conn.sendBuffer.size ≤ 2 * maxMessageSize) s from
    hinvariant.2 fd conn hconn
  refine Machine.run_invariant (P := fun s => HoldsAt (Carried False) s ∧
    HoldsAt (fun _ _ conn => conn.sendBuffer.size ≤ 2 * maxMessageSize) s)
    (fun s step hs hstep => ?_) hshort ⟨holdsAt_init _ _ _, holdsAt_init _ _ _⟩
  obtain ⟨hcarried, hsize⟩ := hs
  have hcarried' : HoldsAt (Carried False) (s.perform step) :=
    (queueRule_carried False).perform hcarried fun fd _ =>
      carried_onClientWritable (s := { s with plan := step.2 }) fd hcarried fun hfalse => hfalse.elim
  have hoffset : ∀ (fd : Int) (conn : ClientConnection), step.1.flushes fd = false →
      s.clients[fd]? = some conn → conn.sendOffset ≤ maxMessageSize := by
    intro fd conn hother hconn
    have h := List.all_eq_true.mp hstep (fd, conn) (Table.mem_toList.mpr hconn)
    simpa [hother] using h
  refine ⟨hcarried', ?_⟩
  by_cases hflush : ∃ fd, step.1 = .event (.writable fd)
  · obtain ⟨fd, hfd⟩ := hflush
    obtain ⟨_, plan⟩ := step
    cases hfd
    refine size_onClientWritable (s := { s with plan }) hcarried hsize fun fd' conn' hne hconn' => ?_
    exact hoffset fd' conn' (decide_eq_false (Ne.symm hne)) hconn'
  · have hnone : ∀ fd, step.1.flushes fd = false := by
      intro fd
      unfold SendStep.flushes
      split
      · next fd' hfd' => exact absurd ⟨fd', hfd'⟩ hflush
      · rfl
    have hoffset' := queueRule_offset.perform (fun fd conn hconn => hoffset fd conn (hnone fd) hconn)
      fun fd hfd => absurd ⟨fd, hfd⟩ hflush
    exact fun fd conn hconn => (hcarried' fd conn hconn).size_le (hoffset' fd conn hconn)

theorem buffer_of_parts_bounded :
    Machine.RunsUnder App.perform (fun s step => s.prefixShort step = true) (App.init 0 0) sentInParts ∧
      ∃ conn : ClientConnection,
        (Machine.run App.perform (App.init 0 0) sentInParts).clients[(5 : Int)]? = some conn ∧
          conn.sendOffset = 20 ∧ conn.sendBuffer.size ≤ 2 * maxMessageSize := by
  have hshort : Machine.RunsUnder perform (fun s step => s.prefixShort step = true) (App.init 0 0)
      sentInParts := by decide +kernel
  have hqueue : ((Machine.run perform (App.init 0 0) sentInParts).clients[(5 : Int)]?).map
      (fun conn => conn.sendOffset) = some 20 := by decide +kernel
  obtain ⟨conn, hconn, hoffset⟩ := map_eq_some_iff.mp hqueue
  exact ⟨hshort, conn, hconn, hoffset, buffer_bounded_with_short_prefix 0 0 sentInParts hshort 5 conn hconn⟩

end OmniBinder.ServiceManager
