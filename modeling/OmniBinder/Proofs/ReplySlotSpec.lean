/-
Module: OmniBinder.Proofs.ReplySlotSpec
Purpose: What the operations on reply slots do to each slot, what one turn of a wait can do, and
  invariants of the stack of waits in progress.
Trusted boundary: none
Main exports: ReplyWaits.turn_pollReturned, ReplyWaits.Carries.step
-/
import OmniBinder.Runtime.RpcRuntime

namespace OmniBinder

/-! ### One table -/

namespace PendingReplyTable

variable (t : PendingReplyTable) {seq a : UInt32}

theorem replies_clear (a : UInt32) :
    t.clear.replies[a]? = t.replies[a]?.bind fun slot =>
      if slot.ready then none else some { slot with failed := true } :=
  Std.TreeMap.getElem?_filterMap'

theorem replies_beginWait_of_ne (h : seq ≠ a) : (t.beginWait seq).replies[a]? = t.replies[a]? := by
  unfold beginWait
  split
  · exact Table.getElem?_insert_of_ne _ h _
  · split
    · rfl
    · exact Table.getElem?_insert_of_ne _ h _

/-- A wait starts with its slot in place: with the reply it holds already, or free of any mark. -/
theorem replies_beginWait_self (seq : UInt32) : ∃ slot, (t.beginWait seq).replies[seq]? = some slot ∧
      (slot.ready = true ∧ t.replies[seq]? = some slot ∨
        slot.ready = false ∧ slot.failed = false ∧ t.pendingReply seq = none) := by
  unfold beginWait pendingReply
  split
  next h => exact ⟨ReplySlot.init, Table.getElem?_insert_self .., .inr ⟨rfl, rfl, rfl⟩⟩
  next slot h =>
    by_cases hready : slot.ready = true
    · rw [if_pos hready]
      exact ⟨slot, h, .inl ⟨hready, h⟩⟩
    · rw [if_neg hready]
      exact ⟨_, Table.getElem?_insert_self .., .inr ⟨rfl, rfl, if_neg hready⟩⟩

variable {t}

theorem pendingReply_eq_some {msg : Message} : t.pendingReply seq = some msg ↔
      ∃ slot, t.replies[seq]? = some slot ∧ slot.ready = true ∧ slot.message = msg := by
  unfold pendingReply
  split
  next h => simp [h]
  next slot h => split <;> simp_all

theorem pendingReply_of_slot {slot : ReplySlot} (h : t.replies[seq]? = some slot) :
    t.pendingReply seq = if slot.ready then some slot.message else none := by
  unfold pendingReply
  rw [h]

theorem isFailed_of_slot {slot : ReplySlot} (h : t.replies[seq]? = some slot) :
    t.isFailed seq = slot.failed := by
  unfold isFailed
  rw [h]

theorem takeReply_of_pendingReply {msg : Message} (h : t.pendingReply seq = some msg) :
    t.takeReply seq = (some msg, t.eraseWait seq) := by
  obtain ⟨slot, hslot, hready, rfl⟩ := pendingReply_eq_some.1 h
  unfold takeReply eraseWait
  rw [hslot]
  exact if_pos hready

/-- What happens to a reply: it is swallowed after another one, stored in the slot of a wait that has
    none yet, or not taken at all. -/
theorem consumeReplyIfWaiting_cases (t : PendingReplyTable) (seq : UInt32) (msg : Message) :
    (∃ slot, t.replies[seq]? = some slot ∧ slot.ready = true ∧
        t.consumeReplyIfWaiting seq msg = (true, t)) ∨
      (∃ slot, t.replies[seq]? = some slot ∧ slot.ready = false ∧ slot.failed = false ∧
        t.consumeReplyIfWaiting seq msg =
          (true, ⟨t.replies.insert seq { slot with ready := true, message := msg }⟩)) ∨
      t.consumeReplyIfWaiting seq msg = (false, t) := by
  unfold consumeReplyIfWaiting pendingReply isWaiting storeReply
  cases hslot : t.replies[seq]? with
  | none => exact .inr (.inr rfl)
  | some slot =>
    cases hready : slot.ready with
    | true => exact .inl ⟨slot, rfl, hready, by simp [hready]⟩
    | false =>
      cases hfailed : slot.failed with
      | true => exact .inr (.inr (by simp [hready, hfailed]))
      | false => exact .inr (.inl ⟨slot, rfl, hready, hfailed, by simp [hready, hfailed]⟩)

end PendingReplyTable

/-! ### The tables of a runtime -/

namespace ReplyWaits

variable (s : ReplyWaits)

theorem table_setTable (p q : Plane) (t : PendingReplyTable) :
    (s.setTable p t).table q = if p = q then t else s.table q := by
  cases p <;> cases q <;> rfl

section
variable (p : Plane) (t : PendingReplyTable)

@[simp]
theorem table_setTable_self : (s.setTable p t).table p = t := by
  rw [table_setTable, if_pos rfl]

@[simp]
theorem frames_setTable : (s.setTable p t).frames = s.frames := by
  cases p <;> rfl

@[simp]
theorem history_setTable : (s.setTable p t).history = s.history := by
  cases p <;> rfl

@[simp]
theorem readings_setTable : (s.setTable p t).readings = s.readings := by
  cases p <;> rfl

end

/-- The in-wait flag and the deadline. -/
def flags : Bool × Int := (s.rpc.inWaitForReply, s.rpc.waitDeadlineMs)

@[simp]
theorem flags_setTable (p : Plane) (t : PendingReplyTable) : (s.setTable p t).flags = s.flags := by
  cases p <;> rfl

/-- The slot is erased and the wait returns. -/
def endWait (frame : WaitFrame) (result : WaitResult) : ReplyWaits :=
  (s.setTable frame.plane ((s.table frame.plane).eraseWait frame.seq)).returnFrom frame result

section
variable (frame : WaitFrame) (result : WaitResult)

theorem slot?_endWait (p : Plane) (a : UInt32) : (s.endWait frame result).slot? p a =
      if frame.plane = p ∧ frame.seq = a then none else s.slot? p a := by
  have htable : (s.endWait frame result).table p =
      (s.setTable frame.plane ((s.table frame.plane).eraseWait frame.seq)).table p := by
    cases p <;> rfl
  unfold slot?
  rw [htable, table_setTable]
  by_cases hp : frame.plane = p
  · subst hp
    rw [if_pos rfl]
    simp only [PendingReplyTable.eraseWait, Table.getElem?_erase, true_and]
  · rw [if_neg hp, if_neg fun h => hp h.1]

@[simp]
theorem frames_endWait : (s.endWait frame result).frames = s.frames :=
  s.frames_setTable ..

@[simp]
theorem history_endWait :
    (s.endWait frame result).history = .returned frame.plane frame.seq result :: s.history :=
  congrArg _ (s.history_setTable ..)

@[simp]
theorem readings_endWait : (s.endWait frame result).readings = s.readings :=
  s.readings_setTable ..

@[simp]
theorem flags_endWait : (s.endWait frame result).flags = (frame.prevInWait, frame.prevDeadline) :=
  rfl

end

/-! ### The start of a wait -/

variable {s} {frame : WaitFrame}

@[simp]
theorem frames_enterWait : (s.enterWait frame).frames = s.frames := frames_setTable ..

@[simp]
theorem flags_enterWait :
    (s.enterWait frame).flags = (true, frame.startedAt + frame.timeoutMs.toNat) := by
  rcases hp : frame.plane <;> simp only [enterWait, setTable, record, flags, hp]

@[simp]
theorem readings_enterWait : (s.enterWait frame).readings = s.readings + 1 := readings_setTable ..

theorem table_enterWait (p : Plane) : (s.enterWait frame).table p =
    (s.setTable frame.plane ((s.table frame.plane).beginWait frame.seq)).table p := by
  cases hp : frame.plane <;> cases p <;> simp only [enterWait, setTable, table, record, hp]

theorem history_enterWait : (s.enterWait frame).history =
    .called frame.plane frame.seq ((s.table frame.plane).pendingReply frame.seq) :: s.history := by
  cases hp : frame.plane <;> simp only [enterWait, setTable, table, record, hp]

theorem slot?_enterWait_of_ne {p : Plane} {a : UInt32} (h : ¬ (frame.plane = p ∧ frame.seq = a)) :
    (s.enterWait frame).slot? p a = s.slot? p a := by
  unfold slot?
  rw [table_enterWait, table_setTable]
  split_ifs with hp
  · subst hp
    exact PendingReplyTable.replies_beginWait_of_ne _ fun ha => h ⟨rfl, ha⟩
  · rfl

/-- The slot of a wait that starts: the one that holds its reply already, or one without a mark. -/
theorem slot?_enterWait_self (s : ReplyWaits) (frame : WaitFrame) :
    ∃ slot, (s.enterWait frame).slot? frame.plane frame.seq = some slot ∧
      (slot.ready = true ∧ s.slot? frame.plane frame.seq = some slot ∨
        slot.ready = false ∧ slot.failed = false ∧
          (s.table frame.plane).pendingReply frame.seq = none) := by
  unfold slot?
  rw [table_enterWait, table_setTable_self]
  exact PendingReplyTable.replies_beginWait_self _ _

/-! ### A message -/

/-- The slot after a reply was taken for it: nothing is new when it has one already. -/
def Took (msg : Message) (slot slot' : ReplySlot) : Prop :=
  slot.ready = true ∧ slot' = slot ∨
    slot.ready = false ∧ slot.failed = false ∧ slot' = { slot with ready := true, message := msg }

/-- A message is not taken, or it is taken for the slot of its own plane and sequence number. -/
theorem onMessage_cases (s : ReplyWaits) (plane : Plane) (msg : Message) : s.onMessage plane msg = s ∨
      ∃ slot slot', s.slot? plane msg.getSequence = some slot ∧ Took msg slot slot' ∧
        (∀ p a, (s.onMessage plane msg).slot? p a =
          if plane = p ∧ msg.getSequence = a then some slot' else s.slot? p a) ∧
        (s.onMessage plane msg).history = .consumed plane msg :: s.history ∧
        (s.onMessage plane msg).frames = s.frames ∧ (s.onMessage plane msg).flags = s.flags ∧
        (s.onMessage plane msg).readings = s.readings := by
  unfold onMessage
  split_ifs
  · rcases (s.table plane).consumeReplyIfWaiting_cases msg.getSequence msg with
      ⟨slot, hslot, hready, htaken⟩ | ⟨slot, hslot, hready, hfailed, htaken⟩ | htaken
    · have hsame : s.setTable plane (s.table plane) = s := by cases plane <;> rfl
      rw [htaken]
      refine .inr ⟨slot, slot, hslot, .inl ⟨hready, rfl⟩, fun p a => ?_, ?_⟩
      · dsimp only
        rw [hsame]
        split_ifs with hkey
        · obtain ⟨rfl, rfl⟩ := hkey
          exact hslot
        · rfl
      · dsimp only
        rw [hsame]
        exact ⟨rfl, rfl, rfl, rfl⟩
    · rw [htaken]
      refine .inr ⟨slot, _, hslot, .inr ⟨hready, hfailed, rfl⟩, fun p a => ?_,
        congrArg _ (history_setTable ..), frames_setTable .., flags_setTable .., readings_setTable ..⟩
      have htable : ∀ t, ((s.setTable plane t).record (.consumed plane msg)).table p =
          (s.setTable plane t).table p := fun _ => by cases p <;> rfl
      unfold slot?
      rw [htable, table_setTable]
      by_cases hp : plane = p
      · subst hp
        simp only [if_true, true_and, Table.getElem?_insert]
      · rw [if_neg hp, if_neg fun h => hp h.1]
    · rw [htaken]
      exact .inl rfl
  · exact .inl rfl

/-! ### One turn of a wait -/

/-- What a wait can do when it is its turn, the frame being off the stack meanwhile. -/
inductive Turn (clock : Nat → Int) (s : ReplyWaits) (frame : WaitFrame) : ReplyWaits → Prop
  | answered (reply : Message)
      (hreply : (s.table frame.plane).pendingReply frame.seq = some reply) :
      Turn clock s frame (s.endWait frame (.ok reply))
  | expired (hreply : (s.table frame.plane).pendingReply frame.seq = none)
      (hlate : s.rpc.waitDeadlineMs ≤ clock s.readings) :
      Turn clock s frame ({ s with readings := s.readings + 1 }.endWait frame (.error .errTimeout))
  | failed (hreply : (s.table frame.plane).pendingReply frame.seq = none)
      (hearly : clock s.readings < s.rpc.waitDeadlineMs)
      (hfailed : (s.table frame.plane).isFailed frame.seq = true) :
      Turn clock s frame
        ({ s with readings := s.readings + 1 }.endWait frame (.error .errConnectionClosed))
  | lost (hreply : (s.table frame.plane).pendingReply frame.seq = none)
      (hwatch : frame.watchesConnection = true) :
      Turn clock s frame (s.endWait frame (.error .errConnectionClosed))
  | polls (hreply : (s.table frame.plane).pendingReply frame.seq = none)
      (hearly : clock s.readings < s.rpc.waitDeadlineMs)
      (hfailed : (s.table frame.plane).isFailed frame.seq = false) :
      Turn clock s frame
        ({ s with readings := s.readings + 2, frames := frame :: s.frames }.record
          (.polled frame.startedAt frame.timeoutMs (clock (s.readings + 1))
            (narrowToInt (s.rpc.waitDeadlineMs - clock (s.readings + 1)))))

theorem turn_waitLoop (s : ReplyWaits) (clock : Nat → Int) (frame : WaitFrame) :
    Turn clock s frame (s.waitLoop clock frame) := by
  unfold waitLoop
  split
  next reply h =>
    rw [PendingReplyTable.takeReply_of_pendingReply h]
    exact .answered reply h
  next h =>
    dsimp only
    split_ifs with hlate hfailed
    · exact .expired h (by omega)
    · exact .failed h (by omega) hfailed
    · exact .polls h (by omega) (Bool.eq_false_iff.2 hfailed)

theorem turn_pollReturned (clock : Nat → Int) {frames : List WaitFrame}
    (h : s.frames = frame :: frames) (alive : Bool) :
    Turn clock { s with frames } frame (s.pollReturned clock alive) := by
  unfold pollReturned
  rw [h]
  dsimp only
  split_ifs with hlost
  · simp only [Bool.and_eq_true, Option.isNone_iff_eq_none] at hlost
    exact .lost hlost.1.1 hlost.1.2
  · exact turn_waitLoop _ clock frame

end ReplyWaits

open List

namespace WaitEntry

/-- The entry begins or ends a wait for the sequence number. -/
def Bounds (plane : Plane) (seq : UInt32) : WaitEntry → Prop
  | called p a _ => p = plane ∧ a = seq
  | returned p a _ => p = plane ∧ a = seq
  | _ => False

/-- The entry begins or ends a wait for the sequence number, or takes a reply with it, or clears the
    slots. -/
def Concerns (plane : Plane) (seq : UInt32) : WaitEntry → Prop
  | called p a _ => p = plane ∧ a = seq
  | returned p a _ => p = plane ∧ a = seq
  | consumed p msg => p = plane ∧ msg.getSequence = seq
  | cleared => True
  | polled .. => False

theorem Bounds.concerns {plane : Plane} {seq : UInt32} {e : WaitEntry} (h : e.Bounds plane seq) :
    e.Concerns plane seq := by
  cases e with
  | called | returned => exact h
  | consumed | cleared | polled => exact h.elim

end WaitEntry

namespace ReplyWaits

variable {s s' : ReplyWaits} {frame : WaitFrame} {clock : Nat → Int}

/-- The state with a wait put back on the stack. -/
def push (s : ReplyWaits) (frame : WaitFrame) : ReplyWaits := { s with frames := frame :: s.frames }

theorem push_of_frames {frames : List WaitFrame} (h : s.frames = frame :: frames) :
    ({ s with frames } : ReplyWaits).push frame = s := by
  simp only [push, ← h]

theorem pollReturned_of_nil (h : s.frames = []) (alive : Bool) : s.pollReturned clock alive = s := by
  simp only [pollReturned, h]

/-! ### The flag and the deadline -/

/-- The flag and the deadline are those of the innermost wait, and the guard of each wait keeps those
    of the wait around it. -/
def Nested (base : Bool × Int) : List WaitFrame → Bool × Int → Prop
  | [], flags => flags = base
  | frame :: frames, flags =>
    flags = (true, frame.startedAt + frame.timeoutMs.toNat) ∧
      Nested base frames (frame.prevInWait, frame.prevDeadline)

variable {base : Bool × Int}

theorem Turn.nested (h : Turn clock s frame s') (hs : Nested base (frame :: s.frames) s.flags) :
    Nested base s'.frames s'.flags := by
  cases h with
  | answered | expired | failed | lost =>
    rw [frames_endWait, flags_endWait]
    exact hs.2
  | polls => exact hs

theorem nested_step (event : WaitEvent) (hs : Nested base s.frames s.flags) :
    Nested base (s.step clock event).frames (s.step clock event).flags := by
  cases event with
  | call plane seq timeoutMs watchesConnection =>
    refine (turn_waitLoop ..).nested ?_
    rw [frames_enterWait, flags_enterWait]
    exact ⟨rfl, hs⟩
  | message plane msg =>
    rcases s.onMessage_cases plane msg with hsame | ⟨_, _, -, -, -, -, hframes, hflags, -⟩
    · rw [step, hsame]
      exact hs
    · rw [step, hframes, hflags]
      exact hs
  | clearReplies => exact hs
  | pollReturned alive =>
    cases hframes : s.frames with
    | nil =>
      rw [step, pollReturned_of_nil hframes]
      exact hs
    | cons frame frames => exact (s.turn_pollReturned clock hframes alive).nested (hframes ▸ hs)

/-! ### The slots of the waits in progress -/

/-- Two waits are for different replies. -/
def Apart (f g : WaitFrame) : Prop := ¬ (f.plane = g.plane ∧ f.seq = g.seq)

/-- A relation between the slot of a wait and the history of it that holds at the start of the wait, and
    is kept by what does not concern the wait and by the replies that are taken for it. -/
structure Follows (R : Plane → UInt32 → ReplySlot → List WaitEntry → Prop) : Prop where
  start : ∀ {plane seq slot history}, slot.ready = true →
    (∀ e ∈ history, ¬ WaitEntry.Bounds plane seq e) →
      R plane seq slot (.called plane seq (some slot.message) :: history)
  startEmpty : ∀ {plane seq slot history}, slot.ready = false → slot.failed = false →
    R plane seq slot (.called plane seq none :: history)
  cons : ∀ {plane seq slot history} {entry : WaitEntry}, R plane seq slot history →
    ¬ entry.Concerns plane seq → R plane seq slot (entry :: history)
  took : ∀ {plane seq slot slot' history} {msg : Message}, R plane seq slot history →
    msg.getSequence = seq → Took msg slot slot' → R plane seq slot' (.consumed plane msg :: history)

/-- The waits in progress are for different replies, and each has its slot in the relation. A slot that
    belongs to no wait in progress never belonged to one. -/
structure Carries (R : Plane → UInt32 → ReplySlot → List WaitEntry → Prop) (s : ReplyWaits) :
    Prop where
  distinct : s.frames.Pairwise Apart
  related : ∀ f ∈ s.frames, ∃ slot, s.slot? f.plane f.seq = some slot ∧
    R f.plane f.seq slot s.history
  vacant : ∀ plane seq slot, s.slot? plane seq = some slot →
    (∃ f ∈ s.frames, f.plane = plane ∧ f.seq = seq) ∨ ∀ e ∈ s.history, ¬ e.Bounds plane seq

variable {R : Plane → UInt32 → ReplySlot → List WaitEntry → Prop}

theorem Carries.turn (hR : Follows R) (h : Carries R (s.push frame)) (hturn : Turn clock s frame s') :
    Carries R s' := by
  have hapart := pairwise_cons.1 h.distinct
  have hend : ∀ readings result, Carries R ({ s with readings }.endWait frame result) := by
    intro readings result
    refine ⟨(frames_endWait ..).symm ▸ hapart.2, ?_, ?_⟩
    · rw [frames_endWait, history_endWait]
      intro f hf
      obtain ⟨slot, hslot, hrelated⟩ := h.related f (mem_cons_of_mem _ hf)
      refine ⟨slot, ?_, hR.cons hrelated (hapart.1 f hf)⟩
      rw [slot?_endWait, if_neg (hapart.1 f hf)]
      exact hslot
    · rw [frames_endWait, history_endWait]
      intro plane seq slot hslot
      rw [slot?_endWait] at hslot
      split_ifs at hslot with hkey
      rcases h.vacant plane seq slot hslot with ⟨f, hf, hfkey⟩ | hnever
      · rcases mem_cons.1 hf with rfl | hf
        · exact absurd hfkey hkey
        · exact .inl ⟨f, hf, hfkey⟩
      · exact .inr (forall_mem_cons.2 ⟨hkey, hnever⟩)
  cases hturn with
  | answered | lost => exact hend s.readings _
  | expired | failed => exact hend _ _
  | polls =>
    refine ⟨h.distinct, fun f hf => ?_, fun plane seq slot hslot => ?_⟩
    · obtain ⟨slot, hslot, hrelated⟩ := h.related f hf
      exact ⟨slot, hslot, hR.cons hrelated id⟩
    · exact (h.vacant plane seq slot hslot).imp id fun hnever =>
        forall_mem_cons.2 ⟨id, hnever⟩

theorem Carries.enterWait (hR : Follows R) (h : Carries R s) (frame : WaitFrame)
    (hfresh : ∀ f ∈ s.frames, Apart frame f) : Carries R ((s.enterWait frame).push frame) := by
  have hframes : ((s.enterWait frame).push frame).frames = frame :: s.frames :=
    congrArg _ frames_enterWait
  have hhistory : ((s.enterWait frame).push frame).history = _ := history_enterWait
  refine ⟨hframes.symm ▸ pairwise_cons.2 ⟨hfresh, h.distinct⟩, ?_, ?_⟩
  · rw [hframes, hhistory]
    refine forall_mem_cons.2 ⟨?_, fun f hf => ?_⟩
    · obtain ⟨slot, hslot, hstart⟩ := slot?_enterWait_self s frame
      refine ⟨slot, hslot, ?_⟩
      rcases hstart with ⟨hready, hold⟩ | ⟨hready, hfailed, hnone⟩
      · have hreply : (s.table frame.plane).pendingReply frame.seq = some slot.message :=
          PendingReplyTable.pendingReply_eq_some.2 ⟨slot, hold, hready, rfl⟩
        rw [hreply]
        -- the slot of no wait in progress: nobody has waited for this number before
        rcases h.vacant _ _ slot hold with ⟨f, hf, hkey⟩ | hnever
        · exact absurd ⟨hkey.1.symm, hkey.2.symm⟩ (hfresh f hf)
        · exact hR.start hready hnever
      · rw [hnone]
        exact hR.startEmpty hready hfailed
    · obtain ⟨slot, hslot, hrelated⟩ := h.related f hf
      exact ⟨slot, (slot?_enterWait_of_ne (hfresh f hf)).trans hslot,
        hR.cons hrelated (hfresh f hf)⟩
  · rw [hframes, hhistory]
    intro plane seq slot hslot
    by_cases hkey : frame.plane = plane ∧ frame.seq = seq
    · exact .inl ⟨frame, mem_cons_self, hkey⟩
    · rcases h.vacant plane seq slot ((slot?_enterWait_of_ne hkey).symm.trans hslot) with
        ⟨f, hf, hfkey⟩ | hnever
      · exact .inl ⟨f, mem_cons_of_mem _ hf, hfkey⟩
      · exact .inr (forall_mem_cons.2 ⟨hkey, hnever⟩)

theorem Carries.onMessage (hR : Follows R) (h : Carries R s) (plane : Plane) (msg : Message) :
    Carries R (s.onMessage plane msg) := by
  rcases s.onMessage_cases plane msg with
    hsame | ⟨slot, slot', hslot, htook, hslots, hhistory, hframes, -, -⟩
  · rw [hsame]
    exact h
  refine ⟨hframes.symm ▸ h.distinct, ?_, ?_⟩
  · rw [hframes, hhistory]
    intro f hf
    obtain ⟨slotf, hslotf, hrelated⟩ := h.related f hf
    rw [hslots]
    split_ifs with hkey
    · obtain ⟨rfl, hseq⟩ := hkey
      rw [hseq] at hslot
      obtain rfl : slot = slotf := Option.some.inj (hslot.symm.trans hslotf)
      exact ⟨slot', rfl, hR.took hrelated hseq htook⟩
    · exact ⟨slotf, hslotf, hR.cons hrelated hkey⟩
  · rw [hframes, hhistory]
    intro p a slotp hslotp
    rw [hslots] at hslotp
    have hbefore : ∃ slot, s.slot? p a = some slot := by
      split_ifs at hslotp with hkey
      · obtain ⟨rfl, rfl⟩ := hkey
        exact ⟨slot, hslot⟩
      · exact ⟨slotp, hslotp⟩
    obtain ⟨before, hbefore⟩ := hbefore
    exact (h.vacant p a before hbefore).imp id fun hnever => forall_mem_cons.2 ⟨id, hnever⟩

/-- Every event but a clear keeps the slots of the waits in progress in the relation, provided that no
    two waits are for the same reply. -/
theorem Carries.step (hR : Follows R) (h : Carries R s) {event : WaitEvent}
    (hcall : ∀ plane seq timeoutMs watchesConnection,
      event = .call plane seq timeoutMs watchesConnection →
        ∀ f ∈ s.frames, ¬ (f.plane = plane ∧ f.seq = seq))
    (hclear : event = .clearReplies → Carries R s.clearReplies) : Carries R (s.step clock event) := by
  cases event with
  | call plane seq timeoutMs watchesConnection =>
    have henter := h.enterWait hR (s.frameFor clock plane seq timeoutMs watchesConnection)
      fun f hf hsame => hcall _ _ _ _ rfl f hf ⟨hsame.1.symm, hsame.2.symm⟩
    exact henter.turn hR (turn_waitLoop ..)
  | message plane msg => exact h.onMessage hR plane msg
  | clearReplies => exact hclear rfl
  | pollReturned alive =>
    cases hframes : s.frames with
    | nil =>
      rw [ReplyWaits.step, pollReturned_of_nil hframes]
      exact h
    | cons frame frames =>
      exact ((push_of_frames hframes).symm ▸ h).turn hR (s.turn_pollReturned clock hframes alive)

end ReplyWaits

end OmniBinder
