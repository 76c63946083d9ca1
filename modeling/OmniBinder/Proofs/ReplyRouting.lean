/-
Module: OmniBinder.Proofs.ReplyRouting
Purpose: Nested waits and the replies they return, as long as no slot is cleared: a wait returns the
  first reply with its own sequence number, no reply is returned twice, and a wait that returns leaves
  nothing behind. What becomes of the waits in progress when the slots are cleared.
Trusted boundary: none
Main exports: ReplyWaits.nested_waits_route_replies, ReplyWaits.clearedSince
-/
import OmniBinder.Proofs.ReplySlotSpec

namespace OmniBinder

open List ReplyWaits

variable {e : WaitEntry} {msg : Message} {older recent : List WaitEntry}

/-! ### What has come in for a wait -/

/-- The wait that is in progress for a sequence number has a message for its answer: the one it found
    when it was called, being the first wait for that number, or else the first message with the number
    that was taken since. -/
inductive Answers (plane : Plane) (seq : UInt32) (msg : Message) : List WaitEntry → Prop
  | found (before : List WaitEntry) (hfirst : ∀ e ∈ before, ¬ e.Bounds plane seq) :
      Answers plane seq msg (.called plane seq (some msg) :: before)
  | first (earlier before : List WaitEntry) (hseq : msg.getSequence = seq)
      (hnone : ∀ e ∈ earlier, ¬ e.Concerns plane seq) :
      Answers plane seq msg (.consumed plane msg :: (earlier ++ .called plane seq none :: before))
  | later (entry : WaitEntry) (history : List WaitEntry) (hother : ¬ entry.Bounds plane seq)
      (h : Answers plane seq msg history) : Answers plane seq msg (entry :: history)

/-- The wait that is in progress for a sequence number has no answer yet. -/
def Unanswered (plane : Plane) (seq : UInt32) (history : List WaitEntry) : Prop :=
  ∃ earlier before, history = earlier ++ .called plane seq none :: before ∧
    ∀ e ∈ earlier, ¬ e.Concerns plane seq

variable {plane : Plane} {seq : UInt32} {history : List WaitEntry}

theorem Unanswered.cons (h : Unanswered plane seq history)
    (hother : ¬ e.Concerns plane seq) : Unanswered plane seq (e :: history) := by
  obtain ⟨earlier, before, rfl, hnone⟩ := h
  refine ⟨e :: earlier, before, rfl, ?_⟩
  exact forall_mem_cons.2 ⟨hother, hnone⟩

theorem Unanswered.answers (h : Unanswered plane seq history)
    (hseq : msg.getSequence = seq) : Answers plane seq msg (.consumed plane msg :: history) := by
  obtain ⟨earlier, before, rfl, hnone⟩ := h
  exact .first earlier before hseq hnone

variable {result : WaitResult}

/-- The answer of a wait was taken after every wait for the same number that has returned before. -/
theorem Answers.taken_since : ∀ {between : List WaitEntry},
      Answers plane seq msg (between ++ .returned plane seq result :: older) →
      .consumed plane msg ∈ between
  | [], h => by
    cases h with
    | later _ _ hother => exact absurd ⟨rfl, rfl⟩ hother
  | entry :: between, h => by
    generalize hh : entry :: between ++ .returned plane seq result :: older = history at h
    cases h with
    | found before hfirst =>
      obtain ⟨rfl, rfl⟩ := List.cons.inj hh
      exact absurd ⟨rfl, rfl⟩ (hfirst _ (mem_append_right _ mem_cons_self))
    | first =>
      obtain ⟨rfl, -⟩ := List.cons.inj hh
      exact mem_cons_self
    | later _ _ _ h =>
      obtain ⟨rfl, rfl⟩ := List.cons.inj hh
      exact mem_cons_of_mem _ (Answers.taken_since h)

/-- Every reply that was returned was the answer of the wait that returned it. -/
def AllAnswered (history : List WaitEntry) : Prop :=
  ∀ newer plane seq msg older, history = newer ++ .returned plane seq (.ok msg) :: older →
    Answers plane seq msg older ∧ msg.getSequence = seq

theorem AllAnswered.cons (h : AllAnswered history)
    (hnew : ∀ plane seq msg, e = .returned plane seq (.ok msg) →
      Answers plane seq msg history ∧ msg.getSequence = seq) : AllAnswered (e :: history) := by
  intro newer plane seq msg older heq
  cases newer with
  | nil =>
    obtain ⟨rfl, rfl⟩ := List.cons.inj heq
    exact hnew _ _ _ rfl
  | cons _ newer => exact h newer _ _ _ _ (List.cons.inj heq).2

variable {event : WaitEvent}

namespace ReplyWaits

/-! ### The invariant -/

/-- A slot says what has come in for the wait it belongs to. -/
def Tracks (plane : Plane) (seq : UInt32) (slot : ReplySlot) (history : List WaitEntry) : Prop :=
  slot.ready = true ∧ Answers plane seq slot.message history ∨
    slot.ready = false ∧ Unanswered plane seq history

theorem follows_tracks : Follows Tracks where
  start hready hfirst := .inl ⟨hready, .found _ hfirst⟩
  startEmpty hready _ := .inr ⟨hready, [], _, rfl, fun _ he => by cases he⟩
  cons htracks hother :=
    htracks.imp (fun h => ⟨h.1, .later _ _ (fun hb => hother hb.concerns) h.2⟩)
      fun h => ⟨h.1, h.2.cons hother⟩
  took htracks hseq htook := by
    refine .inl ?_
    -- a further reply changes nothing, the first one becomes the answer
    rcases htook with ⟨hready, rfl⟩ | ⟨hready, -, rfl⟩ <;>
      rcases htracks with ⟨hanswered, hanswers⟩ | ⟨hwaiting, hunanswered⟩
    · exact ⟨hready, .later _ _ id hanswers⟩
    · exact absurd (hready.symm.trans hwaiting) (by decide)
    · exact absurd (hanswered.symm.trans hready) (by decide)
    · exact ⟨rfl, hunanswered.answers hseq⟩

/-- The replies that lie in slots have the number of their slot. -/
def Routed (s : ReplyWaits) : Prop :=
  ∀ plane seq slot, s.slot? plane seq = some slot → slot.ready = true →
    slot.message.getSequence = seq

structure Ordered (s : ReplyWaits) : Prop where
  tracked : Carries Tracks s
  routed : s.Routed
  answered : AllAnswered s.history

variable {s s' : ReplyWaits} {frame : WaitFrame} {clock : Nat → Int}

/-- The reply that a turn ends with is the answer of the wait. -/
theorem Turn.routed_answered (h : Turn clock s frame s') (hs : Ordered (s.push frame)) :
    s'.Routed ∧ AllAnswered s'.history := by
  have hend : ∀ readings result, (∀ msg, result = .ok msg →
        Answers frame.plane frame.seq msg s.history ∧ msg.getSequence = frame.seq) →
      ({ s with readings }.endWait frame result).Routed ∧
        AllAnswered ({ s with readings }.endWait frame result).history := by
    intro readings result hok
    refine ⟨fun plane seq slot hslot => ?_, ?_⟩
    · rw [slot?_endWait] at hslot
      split_ifs at hslot
      exact hs.routed plane seq slot hslot
    · rw [history_endWait]
      refine hs.answered.cons fun plane seq msg heq => ?_
      cases heq
      exact hok msg rfl
  cases h with
  | answered reply hreply =>
    refine hend s.readings _ fun msg heq => ?_
    cases heq
    obtain ⟨slot, hslot, hready, rfl⟩ := PendingReplyTable.pendingReply_eq_some.1 hreply
    obtain ⟨slot', hslot', htracks⟩ := hs.tracked.related frame mem_cons_self
    obtain rfl : slot = slot' := Option.some.inj (hslot.symm.trans hslot')
    rcases htracks with ⟨-, hanswers⟩ | ⟨hwaiting, -⟩
    · exact ⟨hanswers, hs.routed _ _ slot hslot hready⟩
    · exact absurd (hready.symm.trans hwaiting) (by decide)
  | expired | failed => exact hend _ _ fun _ heq => by cases heq
  | lost => exact hend s.readings _ fun _ heq => by cases heq
  | polls => exact ⟨hs.routed, hs.answered.cons fun _ _ _ heq => by cases heq⟩

theorem Ordered.turn (h : Ordered (s.push frame)) (hturn : Turn clock s frame s') : Ordered s' :=
  have hrest := hturn.routed_answered h
  ⟨h.tracked.turn follows_tracks hturn, hrest.1, hrest.2⟩

theorem Ordered.enterWait (h : Ordered s) (frame : WaitFrame)
    (hfresh : ∀ f ∈ s.frames, Apart frame f) : Ordered ((s.enterWait frame).push frame) := by
  have hhistory : ((s.enterWait frame).push frame).history = _ := history_enterWait
  refine ⟨h.tracked.enterWait follows_tracks frame hfresh, ?_, ?_⟩
  · intro plane seq slot' hslot' hready'
    by_cases hkey : frame.plane = plane ∧ frame.seq = seq
    · obtain ⟨rfl, rfl⟩ := hkey
      obtain ⟨slot, hslot, hstart⟩ := slot?_enterWait_self s frame
      obtain rfl : slot = slot' := Option.some.inj (hslot.symm.trans hslot')
      rcases hstart with ⟨-, hold⟩ | ⟨hready, -⟩
      · exact h.routed _ _ slot hold hready'
      · exact absurd (hready'.symm.trans hready) (by decide)
    · exact h.routed _ _ slot' ((slot?_enterWait_of_ne hkey).symm.trans hslot') hready'
  · rw [hhistory]
    exact h.answered.cons fun _ _ _ heq => by cases heq

theorem Ordered.onMessage (h : Ordered s) (plane : Plane) (msg : Message) :
    Ordered (s.onMessage plane msg) := by
  have htracked := h.tracked.onMessage follows_tracks plane msg
  rcases s.onMessage_cases plane msg with hsame | ⟨slot, slot', hslot, htook, hslots, hhistory, -⟩
  · rw [hsame]
    exact h
  refine ⟨htracked, fun p a slotp hslotp hready => ?_, ?_⟩
  · rw [hslots] at hslotp
    split_ifs at hslotp with hkey
    · obtain ⟨rfl, rfl⟩ := hkey
      obtain rfl := Option.some.inj hslotp
      rcases htook with ⟨hready, rfl⟩ | ⟨-, -, rfl⟩
      · exact h.routed _ _ _ hslot hready
      · rfl
    · exact h.routed _ _ _ hslotp hready
  · rw [hhistory]
    exact h.answered.cons fun _ _ _ heq => by cases heq

/-- The event clears nothing, and a wait that it starts is for another reply than those in progress. -/
def Fresh (s : ReplyWaits) : WaitEvent → Prop
  | .call plane seq _ _ => ∀ f ∈ s.frames, ¬ (f.plane = plane ∧ f.seq = seq)
  | .clearReplies => False
  | _ => True

theorem Ordered.step (h : Ordered s) (hfresh : s.Fresh event) : Ordered (s.step clock event) := by
  cases event with
  | call plane seq timeoutMs watchesConnection =>
    have henter := h.enterWait (s.frameFor clock plane seq timeoutMs watchesConnection)
      fun f hf hsame => hfresh f hf ⟨hsame.1.symm, hsame.2.symm⟩
    exact henter.turn (turn_waitLoop ..)
  | message plane msg => exact h.onMessage plane msg
  | clearReplies => exact hfresh.elim
  | pollReturned alive =>
    cases hframes : s.frames with
    | nil =>
      rw [step, pollReturned_of_nil hframes]
      exact h
    | cons frame frames =>
      exact ((push_of_frames hframes).symm ▸ h).turn (s.turn_pollReturned clock hframes alive)

/-! ### Whole runs -/

/-- No wait is in progress, and no reply lies in the slot of another number. -/
structure Idle (s : ReplyWaits) : Prop where
  frames : s.frames = []
  history : s.history = []
  routed : s.Routed

theorem idle_init : init.Idle := by
  refine ⟨rfl, rfl, fun plane seq slot hslot => ?_⟩
  cases plane <;> simp [init, slot?, table, PendingReplyTable.init] at hslot

theorem Idle.carries (h : s.Idle) (R : Plane → UInt32 → ReplySlot → List WaitEntry → Prop) :
    Carries R s := by
  refine ⟨?_, ?_, fun _ _ _ _ => .inr ?_⟩
  · rw [h.frames]
    exact .nil
  · rw [h.frames]
    exact fun _ hf => by cases hf
  · rw [h.history]
    exact fun _ he => by cases he

theorem Idle.ordered (h : s.Idle) : Ordered s := by
  refine ⟨h.carries Tracks, h.routed, fun newer _ _ _ older heq => ?_⟩
  rw [h.history] at heq
  exact absurd heq.symm (by simp)

theorem Idle.nested (h : s.Idle) : Nested s.flags s.frames s.flags := by
  rw [h.frames]
  exact rfl

/-- The flag and the deadline of the innermost wait in progress, or those there are without any. -/
def innermost (base : Bool × Int) : List WaitFrame → Bool × Int
  | [] => base
  | frame :: _ => (true, frame.startedAt + frame.timeoutMs.toNat)

theorem Nested.flags_eq {base flags : Bool × Int} :
    ∀ {frames : List WaitFrame}, Nested base frames flags → flags = innermost base frames
  | [], h => h
  | _ :: _, h => h.1

/-- The event is about the slot of a sequence number: a message with it, or a wait for it that begins or
    has its turn. -/
def Touches (s : ReplyWaits) (plane : Plane) (seq : UInt32) : WaitEvent → Prop
  | .call p a _ _ => p = plane ∧ a = seq
  | .message p msg => p = plane ∧ msg.getSequence = seq
  | .clearReplies => True
  | .pollReturned _ => ∃ frame, s.frames.head? = some frame ∧ frame.plane = plane ∧ frame.seq = seq

theorem Turn.slot?_eq (h : Turn clock s frame s')
    (hkey : ¬ (frame.plane = plane ∧ frame.seq = seq)) : s'.slot? plane seq = s.slot? plane seq := by
  cases h with
  | answered | lost => rw [slot?_endWait, if_neg hkey]
  | expired | failed =>
    rw [slot?_endWait, if_neg hkey]
    rfl
  | polls => rfl

theorem slot?_step (h : ¬ s.Touches plane seq event) :
    (s.step clock event).slot? plane seq = s.slot? plane seq := by
  cases event with
  | call p a timeoutMs watchesConnection =>
    have hturn := turn_waitLoop (s.enterWait (s.frameFor clock p a timeoutMs watchesConnection))
      clock (s.frameFor clock p a timeoutMs watchesConnection)
    exact (hturn.slot?_eq h).trans (slot?_enterWait_of_ne h)
  | message p msg =>
    rcases s.onMessage_cases p msg with hsame | ⟨_, _, -, -, hslots, -⟩
    · exact congrArg (·.slot? plane seq) hsame
    · exact (hslots plane seq).trans (if_neg h)
  | clearReplies => exact absurd trivial h
  | pollReturned alive =>
    cases hframes : s.frames with
    | nil => rw [step, pollReturned_of_nil hframes]
    | cons frame frames =>
      have hturn := s.turn_pollReturned clock hframes alive
      exact hturn.slot?_eq fun hkey => h ⟨frame, by rw [hframes]; rfl, hkey⟩

/-- A turn that ends in a return erases the slot. -/
theorem Turn.slot?_of_returned (h : Turn clock s frame s')
    (hreturn : s'.history = .returned plane seq result :: older) :
    (frame.plane = plane ∧ frame.seq = seq) ∧ s'.slot? plane seq = none := by
  cases h with
  | answered | expired | failed | lost =>
    cases hreturn
    exact ⟨⟨rfl, rfl⟩, by rw [slot?_endWait, if_pos ⟨rfl, rfl⟩]⟩
  | polls => cases hreturn

/-- A step that records nothing does not end in a new entry. -/
theorem history_ne_cons {entry : WaitEntry} :
    s.history ≠ entry :: (recent ++ s.history) := by
  intro h
  have hlength := congrArg List.length h
  rw [length_cons, length_append] at hlength
  omega

/-- After a step that ends in a return its slot is gone, and the step was about no other slot. -/
theorem slot?_of_returned (hfresh : s.Fresh event)
    (hreturn : (s.step clock event).history = .returned plane seq result :: (recent ++ s.history)) :
    (s.step clock event).slot? plane seq = none ∧
      ∀ p a, ¬ (p = plane ∧ a = seq) → ¬ s.Touches p a event := by
  cases event with
  | call p a timeoutMs watchesConnection =>
    have hturn := turn_waitLoop (s.enterWait (s.frameFor clock p a timeoutMs watchesConnection))
      clock (s.frameFor clock p a timeoutMs watchesConnection)
    obtain ⟨⟨hp, ha⟩, hnone⟩ := hturn.slot?_of_returned hreturn
    exact ⟨hnone, fun p' a' hne htouch => hne ⟨htouch.1.symm.trans hp, htouch.2.symm.trans ha⟩⟩
  | message p msg =>
    rcases s.onMessage_cases p msg with hsame | ⟨_, _, -, -, -, hhistory, -⟩
    · rw [step, hsame] at hreturn
      exact absurd hreturn history_ne_cons
    · rw [step, hhistory] at hreturn
      cases hreturn
  | clearReplies => exact hfresh.elim
  | pollReturned alive =>
    cases hframes : s.frames with
    | nil =>
      rw [step, pollReturned_of_nil hframes] at hreturn
      exact absurd hreturn history_ne_cons
    | cons frame frames =>
      have hturn := s.turn_pollReturned clock hframes alive
      obtain ⟨hkey, hnone⟩ := hturn.slot?_of_returned hreturn
      refine ⟨hnone, fun p a hne htouch => hne ?_⟩
      obtain ⟨frame', hhead, hkey'⟩ := htouch
      rw [hframes] at hhead
      cases hhead
      exact ⟨hkey'.1.symm.trans hkey.1, hkey'.2.symm.trans hkey.2⟩

instance (s : ReplyWaits) (event : WaitEvent) : Decidable (s.Fresh event) := by
  unfold Fresh
  split <;> infer_instance

/-- In every run of nested waits for different replies, in which nothing is cleared: a wait that returns
    a reply returns the first one with its number that was taken for it; that reply was taken after every
    earlier return for the number, so that none is returned twice; the flag and the deadline are those
    of the innermost wait; an event leaves every slot alone that it is not about; and a wait that
    returns leaves no slot, no other slot changed, and the wait around it as it was. -/
theorem nested_waits_route_replies (clock : Nat → Int) (s₀ : ReplyWaits) (hidle : s₀.Idle)
    (events : List WaitEvent)
    (hruns : Machine.RunsUnder (ReplyWaits.step clock) ReplyWaits.Fresh s₀ events) :
    let s := Machine.run (ReplyWaits.step clock) s₀ events
    (∀ newer plane seq reply older,
      s.history = newer ++ .returned plane seq (.ok reply) :: older →
        Answers plane seq reply older ∧ reply.getSequence = seq) ∧
    (∀ newer plane seq reply between result older,
      s.history = newer ++ .returned plane seq (.ok reply) ::
          (between ++ .returned plane seq result :: older) →
        .consumed plane reply ∈ between) ∧
    s.flags = innermost s₀.flags s.frames ∧
    (∀ event plane seq, ¬ s.Touches plane seq event →
      (s.step clock event).slot? plane seq = s.slot? plane seq) ∧
    ∀ event plane seq result recent, s.Fresh event →
      (s.step clock event).history = .returned plane seq result :: (recent ++ s.history) →
        (s.step clock event).slot? plane seq = none ∧
        (∀ p a, ¬ (p = plane ∧ a = seq) → (s.step clock event).slot? p a = s.slot? p a) ∧
        (s.step clock event).flags = innermost s₀.flags (s.step clock event).frames := by
  intro s
  have hordered : Ordered s :=
    Machine.run_invariant (fun _ _ h hfresh => h.step hfresh) hruns hidle.ordered
  have hnested : Nested s₀.flags s.frames s.flags :=
    Machine.run_invariant (P := fun s => Nested s₀.flags s.frames s.flags)
      (fun _ event h _ => nested_step event h) hruns hidle.nested
  refine ⟨hordered.answered, ?_, hnested.flags_eq, fun _ _ _ => slot?_step, ?_⟩
  · intro newer plane seq reply between result older heq
    exact (hordered.answered _ _ _ _ _ heq).1.taken_since
  · intro event plane seq result recent hfresh hreturn
    obtain ⟨hnone, hother⟩ := slot?_of_returned hfresh hreturn
    exact ⟨hnone, fun p a hne => slot?_step (hother p a hne), (nested_step event hnested).flags_eq⟩

/-- A reply of a type that the control plane waits for. -/
def registerReply (seq : UInt32) : Message :=
  Message.ofType ServiceManager.MessageType.registerReply seq

/-- A wait for reply 2 inside a wait for reply 1: the replies come in the other order, with one more to
    the first, and both waits return what is theirs. -/
theorem nested_waits_in_other_order :
    let events : List WaitEvent :=
      [.call .control 1 5000 false, .call .control 2 1000 false, .message .control (registerReply 1),
        .message .control (registerReply 1), .message .control (registerReply 2), .pollReturned true,
        .pollReturned true]
    let s := Machine.run (step (fun n => n)) init events
    init.Idle ∧
    Machine.RunsUnder (step (fun n => n)) ReplyWaits.Fresh init events ∧
    s.history.head? = some (.returned .control 1 (.ok (registerReply 1))) ∧
    Answers .control 1 (registerReply 1) s.history.tail ∧ s.flags = (false, 0) := by
  intro events s
  have hruns :
      Machine.RunsUnder (step (fun n => n)) ReplyWaits.Fresh init events := by
    decide +kernel
  have hhead : s.history = .returned .control 1 (.ok (registerReply 1)) :: s.history.tail := by
    decide +kernel
  obtain ⟨hanswered, -, hflags, -⟩ := nested_waits_route_replies _ _ idle_init events hruns
  exact ⟨idle_init, hruns, by rw [hhead]; rfl, (hanswered [] _ _ _ _ hhead).1, hflags⟩

end ReplyWaits

end OmniBinder

namespace OmniBinder.ReplyWaits

variable {s : ReplyWaits} {plane : Plane} {seq : UInt32} {clock : Nat → Int}

/-- The slots of the plane were cleared since the wait for a sequence number began. -/
def clearedSince (plane : Plane) (seq : UInt32) : List WaitEntry → Bool
  | [] => false
  | .called p a _ :: history =>
    if p = plane ∧ a = seq then false else clearedSince plane seq history
  | .cleared :: history => plane = .control || clearedSince plane seq history
  | _ :: history => clearedSince plane seq history

/-- The event starts a wait for another reply than those in progress, it clears the slots when no wait
    in progress has its reply, and it does not return to a wait that was cleared when its deadline is
    over. -/
def clearsUnanswered (clock : Nat → Int) (s : ReplyWaits) : WaitEvent → Prop
  | .call plane seq _ _ => ∀ f ∈ s.frames, ¬ (f.plane = plane ∧ f.seq = seq)
  | .message _ _ => True
  | .clearReplies => ∀ f ∈ s.frames, f.plane = .control → s.controlReplies.pendingReply f.seq = none
  | .pollReturned _ => ∀ f ∈ s.frames.head?, clearedSince f.plane f.seq s.history = true →
      clock s.readings < s.rpc.waitDeadlineMs

instance (clock : Nat → Int) (s : ReplyWaits) (event : WaitEvent) :
    Decidable (s.clearsUnanswered clock event) := by
  unfold clearsUnanswered
  split <;> infer_instance

/-! ### The invariant -/

/-- A slot that was cleared during the wait it belongs to is marked, and no reply is in it. -/
def Marked (plane : Plane) (seq : UInt32) (slot : ReplySlot) (history : List WaitEntry) : Prop :=
  clearedSince plane seq history = true → slot.failed = true ∧ slot.ready = false

theorem clearedSince_called (found : Option Message) (history : List WaitEntry) :
    clearedSince plane seq (.called plane seq found :: history) = false :=
  if_pos ⟨rfl, rfl⟩

theorem clearedSince_cons {entry : WaitEntry} (h : ¬ entry.Concerns plane seq)
    (history : List WaitEntry) :
    clearedSince plane seq (entry :: history) = clearedSince plane seq history := by
  cases entry with
  | called p a found => exact if_neg h
  | cleared => exact absurd trivial h
  | consumed | polled | returned => rfl

theorem follows_marked : Follows Marked where
  start _ _ hsince := by
    rw [clearedSince_called] at hsince
    cases hsince
  startEmpty _ _ hsince := by
    rw [clearedSince_called] at hsince
    cases hsince
  cons hmarked hother hsince := hmarked (clearedSince_cons hother _ ▸ hsince)
  took hmarked _ htook hsince := by
    -- a slot that is marked takes no reply
    obtain ⟨hfailed, hready⟩ := hmarked hsince
    rcases htook with ⟨-, rfl⟩ | ⟨-, hunmarked, -⟩
    · exact ⟨hfailed, hready⟩
    · exact absurd (hfailed.symm.trans hunmarked) (by decide)

theorem carries_clearReplies (h : Carries Marked s)
    (hunanswered : ∀ f ∈ s.frames, f.plane = .control → s.controlReplies.pendingReply f.seq = none) :
    Carries Marked s.clearReplies := by
  refine ⟨h.distinct, fun f hf => ?_, ?_⟩
  rotate_left
  · -- a clear makes no slot
    intro plane seq slot hslot
    have hbefore : ∃ slot, s.slot? plane seq = some slot := by
      cases plane with
      | data => exact ⟨slot, hslot⟩
      | control =>
        have hcleared := (s.controlReplies.replies_clear seq).symm.trans hslot
        obtain ⟨before, hbefore, -⟩ := Option.bind_eq_some_iff.1 hcleared
        exact ⟨before, hbefore⟩
    obtain ⟨before, hbefore⟩ := hbefore
    exact (h.vacant plane seq before hbefore).imp id fun hnever =>
      List.forall_mem_cons.2 ⟨id, hnever⟩
  obtain ⟨slot, hslot, hmarked⟩ := h.related f hf
  cases hplane : f.plane with
  | data =>
    rw [hplane] at hslot hmarked
    exact ⟨slot, hslot, hmarked⟩
  | control =>
    rw [hplane] at hslot
    have hslot : s.controlReplies.replies[f.seq]? = some slot := hslot
    have hready : slot.ready = false := by
      cases hready : slot.ready with
      | false => rfl
      | true =>
        have hreply := hunanswered f hf hplane
        rw [PendingReplyTable.pendingReply_of_slot hslot, hready] at hreply
        cases hreply
    have hcleared := s.controlReplies.replies_clear f.seq
    rw [hslot, Option.bind_some, hready] at hcleared
    exact ⟨⟨false, true, slot.message⟩, hcleared, fun _ => ⟨rfl, rfl⟩⟩

theorem carries_marked_step (h : Carries Marked s) {event : WaitEvent}
    (hfine : s.clearsUnanswered clock event) : Carries Marked (s.step clock event) := by
  refine h.step follows_marked ?_ ?_
  · rintro plane seq timeoutMs watchesConnection rfl
    exact hfine
  · rintro rfl
    exact carries_clearReplies h hfine

/-! ### Whole runs -/

/-- In every run of nested waits for different replies, in which no slot that has its reply is cleared
    under a wait: a wait whose slot was cleared gives up when its poll returns, with the error that says
    that the connection was closed. -/
theorem cleared_wait_gives_up (clock : Nat → Int) (s₀ : ReplyWaits) (hidle : s₀.Idle)
    (events : List WaitEvent) (alive : Bool)
    (hruns : Machine.RunsUnder (ReplyWaits.step clock) (clearsUnanswered clock) s₀
      (events ++ [.pollReturned alive])) :
    let s := Machine.run (ReplyWaits.step clock) s₀ events
    ∀ frame ∈ s.frames.head?, clearedSince frame.plane frame.seq s.history = true →
      (s.step clock (.pollReturned alive)).history =
        .returned frame.plane frame.seq (.error .errConnectionClosed) :: s.history := by
  intro s frame hframe hsince
  obtain ⟨hruns, hlast, -⟩ := Machine.runsUnder_append.1 hruns
  have hcarries : Carries Marked s :=
    Machine.run_invariant (P := Carries Marked) (fun _ _ h hfine => carries_marked_step h hfine) hruns
      (hidle.carries _)
  have hearly : clock s.readings < s.rpc.waitDeadlineMs := hlast frame hframe hsince
  obtain ⟨frames, hframes⟩ : ∃ frames, s.frames = frame :: frames := List.head?_eq_some_iff.1 hframe
  obtain ⟨slot, hslot, hmarked⟩ := hcarries.related frame (hframes ▸ List.mem_cons_self)
  obtain ⟨hfailed, hready⟩ := hmarked hsince
  have hreply : (s.table frame.plane).pendingReply frame.seq = none := by
    rw [PendingReplyTable.pendingReply_of_slot hslot, hready]
    rfl
  have hturn := s.turn_pollReturned clock hframes alive
  generalize hs' : s.pollReturned clock alive = s' at hturn
  rw [step, hs']
  cases hturn with
  | answered reply hanswer => cases hreply.symm.trans hanswer
  | expired _ hlate => exact absurd hearly (not_lt.2 hlate)
  | failed | lost => exact history_endWait ..
  | polls _ _ hunmarked =>
    have hmark : (s.table frame.plane).isFailed frame.seq = true :=
      (PendingReplyTable.isFailed_of_slot hslot).trans hfailed
    exact absurd (hmark.symm.trans hunmarked) (by decide)

/-- Two nested waits are cleared before any reply has come in, and each gives up at its next turn. -/
theorem cleared_waits_give_up_in_turn :
    let events : List WaitEvent :=
      [.call .control 1 5000 false, .call .control 2 1000 false, .clearReplies,
        .message .control (registerReply 1), .pollReturned true]
    let s := Machine.run (step (fun n => n)) init events
    Machine.RunsUnder (step (fun n => n)) (clearsUnanswered (fun n => n)) init
        (events ++ [.pollReturned true]) ∧
      (s.step (fun n => n) (.pollReturned true)).history =
        .returned .control 1 (.error .errConnectionClosed) :: s.history := by
  intro events s
  have hruns : Machine.RunsUnder (step (fun n => n)) (clearsUnanswered (fun n => n))
      init (events ++ [.pollReturned true]) := by
    decide +kernel
  have hsince : clearedSince .control 1 s.history = true := by decide +kernel
  exact ⟨hruns, cleared_wait_gives_up _ _ idle_init events true hruns
    ⟨.control, 1, 5000, 0, false, 0, false⟩ (by decide +kernel) hsince⟩

/-- The reply to the outer wait comes in while the inner wait polls, and then the slots are cleared. The
    inner wait gives up at once. The outer one has lost its reply: it polls on and ends with a timeout. -/
theorem answered_wait_expires_after_clear :
    let events : List WaitEvent :=
      [.call .control 1 8 false, .call .control 2 8 false, .message .control (registerReply 1),
        .clearReplies, .pollReturned true, .pollReturned true, .pollReturned true]
    let s := Machine.run (step (fun n => n)) init events
    s.history =
      [.returned .control 1 (.error .errTimeout), .polled 0 8 8 0,
        .returned .control 2 (.error .errConnectionClosed), .cleared,
        .consumed .control (registerReply 1), .polled 3 8 5 6, .called .control 2 none,
        .polled 0 8 2 6, .called .control 1 none] := by
  decide +kernel

end OmniBinder.ReplyWaits
