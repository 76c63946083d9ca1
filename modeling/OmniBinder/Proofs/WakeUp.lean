/-
Module: OmniBinder.Proofs.WakeUp
Purpose: When a consumer of the shared-memory ring can sleep on a frame.
Trusted boundary: none (fully proved)
Main exports: RingThreads.InStep, RingThreads.overtaking_send_loses_wake_up
-/
import OmniBinder.Proofs.RingQueue

namespace OmniBinder

open List LittleEndian RingThreads

variable {n c : UInt32} {chunk frame : Bytes} {stores : List RingStore} {pc : ConsumerPc}

/-! ### Stores on their way to memory -/

/-- The stores of the consumer: they move the read cursor past some bytes, piece by piece. -/
inductive Advances (c : UInt32) : UInt32 → List RingStore → Bytes → UInt32 → Prop where
  | nil (r : UInt32) : Advances c r [] [] r
  | cons {r n final : UInt32} {chunk taken : Bytes} {stores : List RingStore}
      (hn : n.toNat = chunk.length)
      (h : Advances c (shmAdvancePos r n c) stores taken final) :
      Advances c r (.readPos (shmAdvancePos r n c) :: stores) (chunk ++ taken) final

variable {ring : ShmRing} {content : Bytes}

namespace Advances

variable {c r final : UInt32} {stores : List RingStore} {taken : Bytes}

theorem snoc (h : Advances c r stores taken final)
    (hn : n.toNat = chunk.length) :
    Advances c r (stores ++ [.readPos (shmAdvancePos final n c)]) (taken ++ chunk)
      (shmAdvancePos final n c) := by
  induction h with
  | nil r =>
    have := Advances.cons hn (Advances.nil (shmAdvancePos r n c))
    rw [append_nil] at this
    exact this
  | cons hm _ ih =>
    rw [append_assoc]
    exact Advances.cons hm ih

/-- The consumer sees its own read cursor. -/
theorem view (h : Advances c r stores taken final) (hr : ring.readPos = r) :
    stores.foldl (RingStore.apply c) ring = { ring with readPos := final } := by
  induction h generalizing ring with
  | nil r =>
    subst hr
    rfl
  | cons _ _ ih =>
    rw [foldl_cons, ih rfl]
    rfl

/-- Behind the bytes that are already taken lie the others. -/
theorem span {rest : Bytes} (h : Advances c r stores taken final) (hr : ring.readPos = r)
    (hspan : RingSpan c ring (taken ++ rest)) :
    RingSpan c { ring with readPos := final } rest := by
  induction h generalizing ring with
  | nil r =>
    subst hr
    exact hspan
  | cons hn _ ih =>
    subst hr
    rw [append_assoc] at hspan
    have hrest := @ih _ rfl (hspan.skip hn)
    exact hrest

end Advances

/-- The stores of a send: copies one behind the other, then the write cursor behind them. -/
inductive Staged (c : UInt32) : UInt32 → List RingStore → Bytes → Prop where
  | publish (pos : UInt32) : Staged c pos [.writePos pos] []
  | copy {pos n : UInt32} {chunk rest : Bytes} {stores : List RingStore}
      (hn : n.toNat = chunk.length) (h : Staged c (shmAdvancePos pos n c) stores rest) :
      Staged c pos (.copyIn pos chunk :: stores) (chunk ++ rest)

/-- The stores that `shmRingWriteFrame` issues. -/
theorem staged_frameStores (c writeStart : UInt32) (frame : RingFrame) :
    Staged c writeStart (frameStores c writeStart frame.val) (ringFrame frame.val) := by
  have hlen := frame.property.toNat_ofNat
  have hbody : Staged c (shmAdvancePos writeStart 4 c) _ (frame.val ++ []) :=
    Staged.copy hlen (Staged.publish _)
  rw [append_nil] at hbody
  rw [frameStores, ringFrame]
  simp only [hlen]
  exact Staged.copy (length_encode _ _).symm hbody

/-- A frame of which some bytes lie behind the content of the ring and the others are still to come. -/
def Filling (c : UInt32) (ring : ShmRing) (stores : List RingStore) (content frame : Bytes) : Prop :=
  ∃ pos copied rest, RingSpan c { ring with writePos := pos } (content ++ copied) ∧
    Staged c pos stores rest ∧ copied ++ rest = ringFrame frame ∧
    content.length + (ringFrame frame).length < c.toNat

/-- Bytes behind the write cursor do not matter. -/
theorem RingSpan.shorten {pos : UInt32} {extra : Bytes}
    (h : RingSpan c { ring with writePos := pos } (content ++ extra))
    (hw : ring.writePos.toNat = (ring.readPos.toNat + content.length) % c.toNat) :
    RingSpan c ring content := by
  have hle : content.length ≤ (content ++ extra).length := by
    rw [length_append]
    exact Nat.le_add_right _ _
  refine ⟨⟨h.capacity_min, h.capacity_eq, h.readPos_lt, lt_of_le_of_lt hle h.used_lt, hw⟩,
    h.length_data, ?_⟩
  rw [Circular.occupied_take hle]
  exact (congrArg (List.take content.length) h.content_eq).trans (take_left' rfl)

variable {store : RingStore}

/-- The next store of a send reaches memory: another piece of the frame, or the frame itself. -/
theorem Filling.flush
    (h : Filling c ring (store :: stores) content frame) (hspan : RingSpan c ring content) :
    (RingSpan c (store.apply c ring) content ∧ (store.apply c ring).writePos = ring.writePos ∧
        (store.apply c ring).readPos = ring.readPos ∧
        Filling c (store.apply c ring) stores content frame) ∨
      (stores = [] ∧ (store.apply c ring).readPos = ring.readPos ∧
        RingSpan c (store.apply c ring) (content ++ ringFrame frame)) := by
  obtain ⟨pos, copied, rest, hcopied, hstaged, hframe, hroom⟩ := h
  cases hstaged with
  | publish =>
    right
    rw [append_nil] at hframe
    rw [hframe] at hcopied
    exact ⟨rfl, rfl, hcopied⟩
  | @copy _ n chunk rest _ hn hstaged =>
    left
    have hfits : (content ++ copied).length + chunk.length < c.toNat := by
      have := congrArg List.length hframe
      simp only [length_append] at this ⊢
      omega
    have happend := hcopied.append hn hfits
    rw [append_assoc] at happend
    have happend' : RingSpan c { RingStore.apply c ring (.copyIn pos chunk) with
        writePos := shmAdvancePos pos n c } (content ++ (copied ++ chunk)) := happend
    refine ⟨happend'.shorten hspan.writePos_eq, rfl, rfl, ?_⟩
    exact ⟨_, copied ++ chunk, rest, happend', hstaged, by rw [append_assoc, hframe], hroom⟩

/-- Taking bytes away at the front does not disturb a send. -/
theorem Filling.advance
    (h : Filling c ring stores (chunk ++ content) frame) (hn : n.toNat = chunk.length) :
    Filling c { ring with readPos := shmAdvancePos ring.readPos n c } stores content frame := by
  obtain ⟨pos, copied, rest, hcopied, hstaged, hframe, hroom⟩ := h
  rw [append_assoc] at hcopied
  rw [length_append] at hroom
  exact ⟨pos, copied, rest, hcopied.skip hn, hstaged, hframe, by omega⟩

namespace RingThreads

variable {c : UInt32} {st st' : RingThreads} {taken rest : Bytes} {visible : List Bytes}

/-! ### The invariant -/

/-- What the consumer still has in front of it, by where it stands: whole frames, or the body of one
    whose length prefix it has passed and whole frames behind it. None of its stores is on its way while
    it sleeps and when it has just seen a frame. -/
inductive AtFrame (stores : List RingStore) : ConsumerPc → Bytes → List Bytes → Prop where
  | idle (hnone : stores = []) (visible : List Bytes) :
      AtFrame stores .idle (ringBytes visible) visible
  | peek (visible : List Bytes) : AtFrame stores .peek (ringBytes visible) visible
  | recv (hnone : stores = []) (frame : Bytes) (visible : List Bytes) :
      AtFrame stores (.recv frame.length) (ringBytes (frame :: visible)) (frame :: visible)
  | read (frame : Bytes) (visible : List Bytes) (r : UInt32) (hsized : FrameSized frame) :
      AtFrame stores (.read (UInt32.ofNat frame.length) r) (frame ++ ringBytes visible) visible

theorem AtFrame.arrive (h : AtFrame stores pc rest visible) (frame : Bytes) :
    AtFrame stores pc (rest ++ ringFrame frame) (visible ++ [frame]) := by
  cases h with
  | idle hnone =>
    rw [← ringBytes_snoc]
    exact .idle hnone _
  | peek =>
    rw [← ringBytes_snoc]
    exact .peek _
  | recv hnone head =>
    rw [← ringBytes_snoc]
    exact .recv hnone head _
  | read head _ r hsized =>
    rw [append_assoc, ← ringBytes_snoc]
    exact .read head _ r hsized

/-- The producer has issued the stores of a frame that starts at `writeStart`, and has not returned. -/
def AfterStore (writeStart : UInt32) : ProducerPc → Prop
  | .recheck start _ => start = writeStart
  | .notify start => start = writeStart
  | _ => False

/-- The two threads agree about the ring. In memory it holds `taken`, which the consumer has consumed
    while its stores are still on their way, and `rest`, which are the `visible` frames. A sleeping
    consumer without a signal has no visible frame, unless it is the one of the send in progress. -/
structure InStep (c : UInt32) (st : RingThreads) (taken rest : Bytes) (visible : List Bytes) :
    Prop where
  capacity_max : c.toNat ≤ 2 ^ 32 - 4
  sized : ∀ frame ∈ visible, FrameSized frame
  span : RingSpan c st.ring (taken ++ rest)
  advances : ∃ final, Advances c st.ring.readPos st.consumerStores taken final
  at_frame : AtFrame st.consumerStores st.consumer rest visible
  filling : st.producerStores = [] ∨ ∃ frame : RingFrame, AfterStore st.ring.writePos st.producer ∧
    Filling c st.ring st.producerStores (taken ++ rest) frame.val
  awake : st.consumer = .idle → st.signalled = false →
    visible = [] ∨ AfterStore st.ring.readPos st.producer

namespace InStep

/-- The consumer's view of the ring starts behind what it has consumed. -/
theorem consumerView (h : InStep c st taken rest visible) :
    ∃ final, st.consumerView c = { st.ring with readPos := final } ∧
      Advances c st.ring.readPos st.consumerStores taken final ∧
      RingSpan c (st.consumerView c) rest := by
  obtain ⟨final, hadv⟩ := h.advances
  have hview : st.consumerView c = { st.ring with readPos := final } := hadv.view rfl
  refine ⟨final, hview, hadv, ?_⟩
  rw [hview]
  exact hadv.span rfl h.span

/-- Without stores on their way the producer sees the memory. -/
theorem producerView (hstores : st.producerStores = []) : st.producerView c = st.ring := by
  rw [RingThreads.producerView, hstores, foldl_nil]

section
variable (h : InStep c st taken rest visible)
include h

/-- Outside the last part of a send the producer has no stores on their way, and the consumer does not
    sleep on a frame. -/
theorem before_stores (hpc : ∀ writeStart, ¬ AfterStore writeStart st.producer) :
    st.producerStores = [] ∧ (st.consumer = .idle → st.signalled = false → visible = []) :=
  ⟨h.filling.resolve_right fun ⟨_, hafter, _⟩ => hpc _ hafter,
    fun hidle hsignal => (h.awake hidle hsignal).resolve_right (hpc _)⟩

/-- A sleeping consumer has no store on its way, and all that lies in the ring in front of it. -/
theorem holds_of_idle (hidle : st.consumer = .idle) : RingHolds c st.ring visible := by
  have hframe := h.at_frame
  obtain ⟨_, hadv⟩ := h.advances
  rw [hidle] at hframe
  cases hframe with
  | idle hnone =>
    rw [hnone] at hadv
    cases hadv
    exact ⟨h.span, h.capacity_max, h.sized⟩

/-- On an empty ring with no store of the consumer on its way the cursors meet. -/
theorem readPos_of_empty (hidle : st.consumer = .idle)
    (hnothing : visible = []) : st.ring.writePos = st.ring.readPos := by
  subst hnothing
  have hspan := (h.holds_of_idle hidle).span
  have hwrite := hspan.writePos_eq
  change st.ring.writePos.toNat = (st.ring.readPos.toNat + 0) % c.toNat at hwrite
  rw [Nat.add_zero, Nat.mod_eq_of_lt hspan.readPos_toNat_lt] at hwrite
  exact UInt32.toNat_inj.mp hwrite

theorem send (hpc : st.producer = .idle) (frame : RingFrame) :
    InStep c (st.beginSend c frame) taken rest visible := by
  obtain ⟨hnone, hawake⟩ := h.before_stores (hpc ▸ fun _ => id)
  unfold beginSend
  dsimp only
  split
  · exact h
  · exact { h with filling := .inl hnone, awake := fun hidle hsignal => .inl (hawake hidle hsignal) }

/-- The producer finds room and issues its stores. -/
theorem writeFrame {frame : RingFrame} {wasEmpty : Bool}
    (hpc : st.producer = .writeFrame frame wasEmpty)
    (hroom : ¬ shmRingAvailableWrite st.ring c < 4 + UInt32.ofNat frame.val.length) :
    InStep c { st with
      producerStores := st.producerStores ++ frameStores c st.ring.writePos frame.val
      producer := .recheck st.ring.writePos wasEmpty } taken rest visible := by
  obtain ⟨hnone, hawake⟩ := h.before_stores (hpc ▸ fun _ => id)
  have hfits : (taken ++ rest).length + (ringFrame frame.val).length < c.toNat := by
    rw [UInt32.lt_iff_toNat_lt, h.span.toNat_availableWrite, frame.property.toNat_total] at hroom
    rw [length_ringFrame]
    omega
  refine { h with
    filling := .inr ⟨frame, rfl, st.ring.writePos, [], ringFrame frame.val, ?_, ?_, rfl, hfits⟩
    awake := fun hidle hsignal => .inl (hawake hidle hsignal) }
  · rw [append_nil]
    exact h.span
  · rw [hnone]
    exact staged_frameStores c st.ring.writePos frame

end

end InStep

/-- The producer is about to look at the read cursor for the second time. -/
def looksAgain : ProducerPc → Bool
  | .recheck _ wasEmpty => !wasEmpty
  | _ => false

/-- The order the two threads have to keep: when the producer loads the read cursor again, and when the
    consumer peeks, the thread's own stores have reached memory. -/
def Ordered (st : RingThreads) : RingAction → Prop
  | .producer => looksAgain st.producer = true → st.producerStores = []
  | .consumer => st.consumer = .peek → st.consumerStores = []
  | _ => True

instance (st : RingThreads) (action : RingAction) : Decidable (st.Ordered action) := by
  unfold Ordered
  split <;> infer_instance

namespace InStep

section
variable (h : InStep c st taken rest visible)
include h

theorem stepProducer (hord : st.Ordered .producer)
    (hstep : st.stepProducer c = some st') : InStep c st' taken rest visible := by
  unfold RingThreads.stepProducer at hstep
  cases hpc : st.producer with
  | idle =>
    simp only [hpc] at hstep
    cases hstep
  | writeFrame frame wasEmpty =>
    obtain ⟨hnone, hawake⟩ := h.before_stores (hpc ▸ fun _ => id)
    simp only [hpc, InStep.producerView hnone] at hstep
    split at hstep
    · cases hstep
      exact { h with
        filling := .inl hnone
        awake := fun hidle hsignal => .inl (hawake hidle hsignal) }
    · rename_i hroom
      cases hstep
      exact h.writeFrame hpc hroom
  | recheck writeStart wasEmpty =>
    simp only [hpc] at hstep
    have hfilling := h.filling
    have hawake := h.awake
    rw [hpc] at hfilling hawake
    split at hstep
    · cases hstep
      exact { h with filling := hfilling, awake := hawake }
    · rename_i hquiet
      cases hstep
      simp only [Bool.or_eq_true, beq_iff_eq, not_or, Bool.not_eq_true] at hquiet
      obtain ⟨hnotEmpty, hmoved⟩ := hquiet
      -- the second look is at memory, where the read cursor is not at the start of the frame
      have hnone : st.producerStores = [] := hord (by rw [hpc, looksAgain, hnotEmpty]; rfl)
      rw [InStep.producerView hnone] at hmoved
      refine { h with filling := .inl hnone, awake := fun hidle hsignal => .inl ?_ }
      exact (hawake hidle hsignal).resolve_right fun hafter => hmoved hafter.symm
  | notify writeStart =>
    simp only [hpc] at hstep
    split at hstep
    · rename_i hnone
      cases hstep
      exact { h with filling := .inl hnone, awake := nofun }
    · cases hstep

theorem stepConsume (hstep : st.stepConsume = some st') : InStep c st' taken rest visible := by
  unfold RingThreads.stepConsume at hstep
  split at hstep
  · cases hstep
  have hframe := h.at_frame
  split at hstep
  · rename_i hpc
    split at hstep
    · cases hstep
      rw [hpc] at hframe
      cases hframe
      exact { h with at_frame := .peek _, awake := nofun }
    · cases hstep
  · rename_i hpc
    cases hstep
    exact { h with awake := fun hidle => nomatch hpc.symm.trans hidle }
  · cases hstep

/-- Peeking with all stores in memory: the consumer goes to sleep only on an empty ring. -/
theorem peek (hpc : st.consumer = .peek)
    (hstores : st.consumerStores = []) (hstep : st.stepConsumer c = some st') :
    InStep c st' taken rest visible := by
  obtain ⟨final, _, _, hspan⟩ := h.consumerView
  have hframe := h.at_frame
  rw [hpc] at hframe
  cases hframe
  have hholds : RingHolds c (st.consumerView c) visible := ⟨hspan, h.capacity_max, h.sized⟩
  unfold stepConsumer at hstep
  simp only [hpc] at hstep
  cases visible with
  | nil =>
    rw [hholds.inspectFrame_nil] at hstep
    cases hstep
    exact { h with at_frame := .idle hstores [], awake := fun _ _ => .inl rfl }
  | cons frame visible =>
    rw [hholds.inspectFrame_cons] at hstep
    cases hstep
    exact { h with at_frame := .recv hstores frame visible, awake := nofun }

/-- The frame that was seen is still there, and its length prefix is consumed. -/
theorem recv {size : Nat} (hpc : st.consumer = .recv size) (hstep : st.stepConsumer c = some st') :
    ∃ taken' rest' visible', InStep c st' taken' rest' visible' := by
  obtain ⟨final, hview, hadv, hspan⟩ := h.consumerView
  have hframe := h.at_frame
  rw [hpc] at hframe
  cases hframe with
  | recv _ frame visible =>
    have hholds : RingHolds c (st.consumerView c) (frame :: visible) :=
      ⟨hspan, h.capacity_max, h.sized⟩
    have hsized := h.sized frame mem_cons_self
    unfold stepConsumer at hstep
    simp only [hpc, hholds.inspectFrame_cons] at hstep
    simp only [Int.one_ne_zero, if_false, lt_irrefl, or_false,
      show ¬ ((1 : Int) < 0) by decide] at hstep
    cases hstep
    have hsame : taken ++ encode 4 frame.length ++ (frame ++ ringBytes visible) =
        taken ++ ringBytes (frame :: visible) := by
      rw [append_assoc, ← append_assoc (encode 4 frame.length)]
      rfl
    exact ⟨_, _, visible, {
      capacity_max := h.capacity_max
      sized := fun other hmem => h.sized other (mem_cons_of_mem _ hmem)
      span := hsame ▸ h.span
      advances := hview ▸ ⟨_, hadv.snoc (length_encode _ _).symm⟩
      at_frame := .read frame visible _ hsized
      filling := hsame ▸ h.filling
      awake := nofun }⟩

/-- The body of the frame is read and the read cursor moves behind it. -/
theorem read {msgLen r : UInt32}
    (hpc : st.consumer = .read msgLen r) (hstep : st.stepConsumer c = some st') :
    ∃ taken' rest' visible', InStep c st' taken' rest' visible' := by
  obtain ⟨final, hview, hadv, hspan⟩ := h.consumerView
  have hframe := h.at_frame
  rw [hpc] at hframe
  cases hframe with
  | read frame visible r hsized =>
    have hlen := hsized.toNat_ofNat
    have hread := hspan.read_spec (n := UInt32.ofNat frame.length) (by rw [hlen]; exact hsized.1)
      (by rw [hlen, length_append]; exact Nat.le_add_right _ _)
    unfold stepConsumer at hstep
    simp only [hpc, hread, if_true] at hstep
    cases hstep
    have hsame := append_assoc taken frame (ringBytes visible)
    exact ⟨_, _, visible, { h with
      span := hsame ▸ h.span
      advances := hview ▸ ⟨_, hadv.snoc hlen⟩
      at_frame := .peek visible
      filling := hsame ▸ h.filling
      awake := nofun }⟩

theorem flushProducer
    (hstores : st.producerStores = store :: stores) :
    ∃ rest' visible', InStep c
      { st with ring := store.apply c st.ring, producerStores := stores } taken rest' visible' := by
  rcases h.filling with hnone | ⟨frame, hafter, hfill⟩
  · rw [hnone] at hstores
    cases hstores
  rw [hstores] at hfill
  rcases hfill.flush h.span with ⟨hspan, hwrite, hread, hfill⟩ | ⟨hlast, hread, hspan⟩
  · -- a piece of the frame, behind the write cursor
    exact ⟨rest, visible, { h with
      span := hspan
      advances := hread ▸ h.advances
      filling := .inr ⟨frame, hwrite ▸ hafter, hfill⟩
      awake := hread ▸ h.awake }⟩
  · -- the write cursor: the frame becomes visible
    rw [append_assoc] at hspan
    refine ⟨_, _, {
      capacity_max := h.capacity_max
      sized := forall_mem_append.mpr ⟨h.sized, forall_mem_singleton.mpr frame.property⟩
      span := hspan
      advances := hread ▸ h.advances
      at_frame := h.at_frame.arrive frame.val
      filling := .inl hlast
      awake := fun hidle hsignal => .inr ?_ }⟩
    rw [hread]
    exact (h.awake hidle hsignal).elim (fun hnothing => h.readPos_of_empty hidle hnothing ▸ hafter) id

theorem flushConsumer
    (hstores : st.consumerStores = store :: stores) :
    ∃ taken', InStep c
      { st with ring := store.apply c st.ring, consumerStores := stores } taken' rest visible := by
  -- a consumer with a store on its way does not sleep
  have hmoving : AtFrame stores st.consumer rest visible ∧ st.consumer ≠ .idle := by
    have hframe := h.at_frame
    generalize st.consumer = pc at hframe ⊢
    cases hframe with
    | idle hnone => cases hstores.symm.trans hnone
    | peek => exact ⟨.peek _, nofun⟩
    | recv hnone => cases hstores.symm.trans hnone
    | read frame visible r hsized => exact ⟨.read frame visible r hsized, nofun⟩
  obtain ⟨final, hadv⟩ := h.advances
  rw [hstores] at hadv
  cases hadv with
  | @cons _ n _ chunk taken _ hn hadv =>
    have hspan := h.span
    rw [append_assoc] at hspan
    refine ⟨taken, { h with
      span := hspan.skip hn
      advances := ⟨final, hadv⟩
      at_frame := hmoving.1
      filling := ?_
      awake := fun hidle => absurd hidle hmoving.2 }⟩
    rcases h.filling with hnone | ⟨frame, hafter, hfill⟩
    · exact .inl hnone
    · rw [append_assoc] at hfill
      exact .inr ⟨frame, hafter, hfill.advance hn⟩

end

end InStep

theorem InStep.start (hmin : shmMinRingCapacity ≤ c.toNat) (hmax : c.toNat ≤ 2 ^ 32 - 4)
    (hempty : EmptyRing ring c) : InStep c (start ring) [] [] [] :=
  ⟨hmax, by simp, RingSpan.of_emptyRing hmin hempty, ⟨ring.readPos, Advances.nil _⟩,
    .idle rfl [], .inl rfl, fun _ _ => .inl rfl⟩

/-- Every step that keeps the order keeps the invariant. -/
theorem InStep.step (h : InStep c st taken rest visible) {action : RingAction}
    (hord : st.Ordered action) (hstep : st.step c action = some st') :
    ∃ taken' rest' visible', InStep c st' taken' rest' visible' := by
  cases action with
  | send frame =>
    unfold RingThreads.step at hstep
    dsimp only at hstep
    split at hstep
    · rename_i hpc
      cases hstep
      exact ⟨_, _, _, h.send hpc frame⟩
    · cases hstep
  | producer => exact ⟨_, _, _, h.stepProducer hord hstep⟩
  | consume => exact ⟨_, _, _, h.stepConsume hstep⟩
  | consumer =>
    have hstep' : st.stepConsumer c = some st' := hstep
    cases hpc : st.consumer with
    | idle =>
      rw [stepConsumer, hpc] at hstep'
      cases hstep'
    | peek => exact ⟨_, _, _, h.peek hpc (hord hpc) hstep'⟩
    | recv size => exact h.recv hpc hstep'
    | read msgLen r => exact h.read hpc hstep'
    | failed =>
      have hframe := h.at_frame
      rw [hpc] at hframe
      cases hframe
  | flushProducer =>
    unfold RingThreads.step at hstep
    dsimp only at hstep
    split at hstep
    · cases hstep
    · rename_i hstores
      cases hstep
      obtain ⟨rest', visible', hnext⟩ := h.flushProducer hstores
      exact ⟨_, _, _, hnext⟩
  | flushConsumer =>
    unfold RingThreads.step at hstep
    dsimp only at hstep
    split at hstep
    · cases hstep
    · rename_i hstores
      cases hstep
      obtain ⟨taken', hnext⟩ := h.flushConsumer hstores
      exact ⟨_, _, _, hnext⟩

/-! ### Whole interleavings -/

/-- Every action of an interleaving keeps the order, in the state it finds. -/
def OrderedRun (c : UInt32) : RingThreads → List RingAction → Prop
  | _, [] => True
  | st, action :: actions =>
    st.Ordered action ∧ ∀ st' ∈ st.step c action, OrderedRun c st' actions

instance decidableOrderedRun (c : UInt32) :
    (st : RingThreads) → (actions : List RingAction) → Decidable (OrderedRun c st actions)
  | _, [] => inferInstanceAs (Decidable True)
  | st, action :: actions =>
    have := fun st' => decidableOrderedRun c st' actions
    inferInstanceAs (Decidable (_ ∧ ∀ st' ∈ st.step c action, OrderedRun c st' actions))

theorem InStep.run (h : InStep c st taken rest visible) (actions : List RingAction)
    (hord : OrderedRun c st actions) (hrun : st.run c actions = some st') :
    ∃ taken' rest' visible', InStep c st' taken' rest' visible' := by
  induction actions generalizing st taken rest visible with
  | nil =>
    cases hrun
    exact ⟨taken, rest, visible, h⟩
  | cons action actions ih =>
    unfold run at hrun
    split at hrun
    · cases hrun
    · rename_i next hstep
      obtain ⟨taken', rest', visible', hnext⟩ := h.step hord.1 hstep
      exact ih hnext (hord.2 next hstep) hrun

/-- A wake-up is not lost in a state the invariant describes. -/
theorem InStep.not_lostWakeUp (h : InStep c st taken rest visible) : ¬ st.LostWakeUp c := by
  rintro ⟨_, hproducer, hinspect, hidle, hsignal⟩
  have hholds := h.holds_of_idle hidle
  rw [(h.before_stores (hproducer ▸ fun _ => id)).2 hidle hsignal] at hholds
  rw [hholds.inspectFrame_nil] at hinspect
  cases hinspect

/-- Take a ring that has just been set up, and any interleaving of the two threads in which the
    producer's second look at the read cursor and the consumer's peeks happen only when the thread's own
    stores have reached memory. No state it leads to has lost a wake-up. -/
theorem no_lost_wake_up (c : UInt32) (ring : ShmRing) (hempty : EmptyRing ring c)
    (hmin : shmMinRingCapacity ≤ c.toNat) (hmax : c.toNat ≤ 2 ^ 32 - 4) (actions : List RingAction)
    (hord : OrderedRun c (start ring) actions) (st : RingThreads)
    (hrun : (start ring).run c actions = some st) : ¬ st.LostWakeUp c := by
  obtain ⟨_, _, _, hstep⟩ := (InStep.start hmin hmax hempty).run actions hord hrun
  exact hstep.not_lostWakeUp

/-! ### A wake-up that is lost -/

/-- A ring of the smallest capacity that has just been set up. -/
def smallRing : ShmRing := ⟨0, 0, 64, 0, List.replicate 64 0⟩

def sampleFrame (byte : UInt8) : RingFrame := ⟨[byte], Nat.le_refl 1, show 1 ≤ _ by decide⟩

/-- The first frame is sent and signalled, and the consumer has seen it when the second send looks at
    the ring for the first time. -/
def firstFrame : List RingAction :=
  [.send (sampleFrame 1), .producer, .producer, .flushProducer, .flushProducer, .flushProducer,
    .producer, .consume, .consumer, .send (sampleFrame 2), .producer]

/-- The consumer takes the first frame, its stores reach memory, and it peeks again. -/
def takeFrame : List RingAction :=
  [.consumer, .consumer, .flushConsumer, .flushConsumer, .consumer]

/-- The producer's stores reach memory before it looks again. -/
def orderedActions : List RingAction :=
  firstFrame ++ [.flushProducer, .flushProducer, .flushProducer, .producer] ++ takeFrame

/-- The producer looks again while its stores are still in its buffer. -/
def overtakingActions : List RingAction :=
  firstFrame ++ [.producer] ++ takeFrame ++ [.flushProducer, .flushProducer, .flushProducer]

theorem ordered_send_keeps_wake_up :
    ∃ st, (start smallRing).run 64 orderedActions = some st ∧ st.sends = 2 ∧ ¬ st.LostWakeUp 64 := by
  have hsends : ((start smallRing).run 64 orderedActions).map sends = some 2 := by
    decide +kernel
  obtain ⟨st, hrun, htwo⟩ := Option.map_eq_some_iff.mp hsends
  exact ⟨st, hrun, htwo, no_lost_wake_up 64 smallRing ⟨rfl, rfl, rfl, rfl⟩ (by decide) (by decide)
    orderedActions (by decide +kernel) st hrun⟩

/-- The second send found the ring occupied, and at its second look the consumer had not moved yet.
    When all stores have reached memory the second frame lies in the ring, and nobody will wake the
    consumer. -/
theorem overtaking_send_loses_wake_up :
    ∃ st, (start smallRing).run 64 overtakingActions = some st ∧ st.producerStores = [] ∧
      st.consumerStores = [] ∧ st.LostWakeUp 64 := by
  have hlost : ((start smallRing).run 64 overtakingActions).map (fun st =>
      decide (st.producerStores = [] ∧ st.consumerStores = [] ∧ st.LostWakeUp 64)) = some true := by
    decide +kernel
  obtain ⟨st, hrun, hdecide⟩ := Option.map_eq_some_iff.mp hlost
  exact ⟨st, hrun, of_decide_eq_true hdecide⟩

end RingThreads

end OmniBinder
