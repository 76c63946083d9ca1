/-
Module: OmniBinder.Proofs.PostOrder
Purpose: What becomes of posted functors, and the promise of `post`: a functor whose `post` has returned
  true is run exactly once by the time `run` returns, the functors of a thread are run in the order of its
  calls, and after a `stop` has returned nothing is accepted.
Trusted boundary: none
Main exports: EventLoop.Drains, EventLoop.posted_functors_run
-/
import Mathlib.Data.List.Nodup
import OmniBinder.Proofs.LoopEffects

namespace OmniBinder

open List

variable {frames : List LoopFrame}

namespace LoopLog

def queued? : LoopLog → Option Posted
  | .queued posted => some posted
  | _ => none

def ran? : LoopLog → Option Posted
  | .ran posted => some posted
  | _ => none

end LoopLog

/-- The frame may take the pending functors. -/
def LoopFrame.takesFunctors : LoopFrame → Bool
  | .run _ _ => true
  | .poll processFunctors _ => processFunctors
  | _ => false

variable {pc : RunPc} {old : LoopFrame} {callers : List LoopFrame}

namespace EventLoop

variable {s s' : EventLoop}

/-- The functors that were queued, in this order. -/
def accepted (s : EventLoop) : List Posted := s.log.filterMap LoopLog.queued?

/-- The functors that were run, in this order. -/
def executed (s : EventLoop) : List Posted := s.log.filterMap LoopLog.ran?

/-- What the loops over functors in progress still hold. -/
def batch (s : EventLoop) : List Posted := s.frames.flatMap LoopFrame.batch

/-- The callbacks may wait for replies, with polls that run no functors, but neither run the loop nor
    poll it in full. -/
def callbacksOnlyWait (s : EventLoop) : LoopEvent → Prop
  | .act (.run _) => s.frames = []
  | .act .pollOnce => s.frames = []
  | _ => True

instance (s : EventLoop) (event : LoopEvent) : Decidable (s.callbacksOnlyWait event) := by
  unfold callbacksOnlyWait
  split <;> infer_instance

/-! ### The invariant of the queue -/

/-- A frame that may take functors is outside of no loop over functors. -/
def Outermost (frames : List LoopFrame) : Prop :=
  frames.Pairwise fun inner outer => inner.takesFunctors = true → outer.batch = []

structure Drains (s : EventLoop) : Prop where
  conserved : s.accepted = s.executed ++ s.batch ++ s.pendingFunctors
  outermost : Outermost s.frames
  runOk : ∀ onTick pc, .run onTick pc ∈ s.frames → s.RunOk pc
  noBackend : s.backend = false → s.accepted = []
  stopClosed : s.stopRequested = true → s.closed = true
  returned : .runReturned ∈ s.log →
    s.pendingFunctors = [] ∧ s.batch = [] ∧ (s.closed = true ∨ s.backend = false)

theorem Drains.init (backend : Bool) (wakeupFd : Int) : (init backend wakeupFd).Drains where
  conserved := rfl
  outermost := List.Pairwise.nil
  runOk := by simp [EventLoop.init]
  noBackend := by simp [EventLoop.init, accepted]
  stopClosed := by simp [EventLoop.init]
  returned := by simp [EventLoop.init]

/-- What the steps leave of the flags. -/
structure FlagsKept (s s' : EventLoop) : Prop where
  backend : s'.backend = s.backend
  closed : s.closed = true → s'.closed = true
  stopClosed : s'.stopRequested = true → s'.closed = true
  running : s.running = true → s'.running = true ∨ s'.closed = true

/-- A point of `run` that was reached stays reached. -/
theorem RunOk.kept (h : s.RunOk pc) (hflags : s.FlagsKept s')
    (hpending : s.pendingFunctors = [] → s'.pendingFunctors = []) : s'.RunOk pc := by
  have harmed : s.running = true ∨ s.closed = true → s'.running = true ∨ s'.closed = true :=
    fun h => h.elim hflags.running fun h => .inr (hflags.closed h)
  cases pc with
  | start | arm => trivial
  | drain => exact hflags.closed h
  | returning => exact ⟨hflags.closed h.1, hpending h.2⟩
  | _ => exact harmed h

/-- The innermost frame gives way to others, which take functors only if it does. -/
theorem Outermost.replaced (h : Outermost (old :: callers))
    (hframes : Outermost frames)
    (htakes : ∀ frame ∈ frames, frame.takesFunctors = true → old.takesFunctors = true) :
    Outermost (frames ++ callers) := by
  obtain ⟨hold, hcallers⟩ := pairwise_cons.1 h
  refine pairwise_append.2 ⟨hframes, hcallers, fun frame hframe outer houter htaking => ?_⟩
  exact hold outer houter (htakes frame hframe htaking)

/-- Inside a frame that may take functors nothing is held back. -/
theorem Outermost.batch_callers (h : Outermost (old :: callers)) (htakes : old.takesFunctors = true) :
    callers.flatMap LoopFrame.batch = [] := by
  rw [flatMap_eq_nil_iff]
  exact fun outer houter => (pairwise_cons.1 h).1 outer houter htakes

/-! ### Steps of the loop's thread -/

/-- Nothing is reported that the promise of `post` is about. -/
def Silent (extra : List LoopLog) : Prop :=
  ∀ entry ∈ extra, entry.queued? = none ∧ entry.ran? = none ∧ entry ≠ .runReturned

theorem silent_callbacks {extra : List LoopLog} (h : ∀ entry ∈ extra, entry.isCallback = true) :
    Silent extra := by
  intro entry hentry
  have hcallback := h entry hentry
  cases entry with
  | runReturned | queued _ | ran _ => cases hcallback
  | _ => exact ⟨rfl, rfl, nofun⟩

theorem Silent.queued {extra : List LoopLog} (h : Silent extra) : extra.filterMap LoopLog.queued? = [] :=
  filterMap_eq_nil_iff.2 fun entry hentry => (h entry hentry).1

theorem Goes.outermost (h : s.Goes old frames) : Outermost frames ∧
    ∀ frame ∈ frames, frame.takesFunctors = true → old.takesFunctors = true := by
  cases h with
  | run _ => exact ⟨pairwise_singleton _ _, fun _ _ _ => rfl⟩
  | poll => exact ⟨pairwise_pair.2 fun _ => rfl, fun _ _ _ => rfl⟩
  | tick => exact ⟨pairwise_pair.2 fun _ => rfl, fun _ _ _ => rfl⟩
  | backendPoll => exact ⟨pairwise_singleton _ _, by simp [LoopFrame.takesFunctors]⟩
  | done => exact ⟨List.Pairwise.nil, by simp⟩

/-- A frame that hands something out is neither `run` nor holds functors, and neither are those it gives way
    to. -/
theorem Hands.facts {timers : List Timer} {log : List LoopLog}
    (h : s.Hands old frames timers log) :
    (old.batch = [] ∧ ∀ frame ∈ frames, frame.batch = []) ∧
      (∀ frame ∈ frames, frame.takesFunctors = true → old.takesFunctors = true) ∧
      (∀ onTick pc, .run onTick pc ∉ frames) ∧
      ∃ extra, log = s.log ++ extra ∧ ∀ entry ∈ extra, entry.isCallback = true := by
  cases h with
  | delivered callback hentry =>
    refine ⟨?_, ?_, ?_, [_], rfl, ?_⟩ <;>
      simp [LoopFrame.batch, LoopFrame.takesFunctors, LoopLog.isCallback]
  | started callback =>
    refine ⟨?_, ?_, ?_, [_], rfl, ?_⟩ <;>
      simp [LoopFrame.batch, LoopFrame.takesFunctors, LoopLog.isCallback]
  | _ =>
    refine ⟨?_, ?_, ?_, [], (append_nil _).symm, ?_⟩ <;>
      simp [LoopFrame.batch, LoopFrame.takesFunctors]

section
variable (hs : s.Drains)
include hs

/-- What is run and what is queued is taken from the front of what was held and added behind it. -/
theorem Drains.advance (hflags : s.FlagsKept s') (extra : List LoopLog) (hlog : s'.log = s.log ++ extra)
    (hqueue : extra.filterMap LoopLog.ran? ++ s'.batch ++ s'.pendingFunctors =
      s.batch ++ s.pendingFunctors ++ extra.filterMap LoopLog.queued?)
    (hopen : s.closed = true ∨ s.backend = false → extra.filterMap LoopLog.queued? = [])
    (houtermost : Outermost s'.frames) (hrun : ∀ onTick pc, .run onTick pc ∈ s'.frames → s'.RunOk pc)
    (hreturn : .runReturned ∈ extra →
      s'.pendingFunctors = [] ∧ s'.batch = [] ∧ (s'.closed = true ∨ s'.backend = false)) :
    s'.Drains := by
  have haccepted : s'.accepted = s.accepted ++ extra.filterMap LoopLog.queued? := by
    rw [accepted, hlog, filterMap_append, accepted]
  have hexecuted : s'.executed = s.executed ++ extra.filterMap LoopLog.ran? := by
    rw [executed, hlog, filterMap_append, executed]
  refine ⟨?_, houtermost, hrun, fun hbackend => ?_, hflags.stopClosed, fun hmem => ?_⟩
  · simp only [append_assoc] at hqueue
    rw [haccepted, hexecuted, hs.conserved]
    simp only [append_assoc, hqueue]
  · rw [hflags.backend] at hbackend
    rw [haccepted, hs.noBackend hbackend, hopen (.inr hbackend), append_nil]
  · rw [hlog] at hmem
    rcases mem_append.1 hmem with hold | hnew
    · obtain ⟨hpending, hbatch, hdone⟩ := hs.returned hold
      rw [hpending, hbatch, hopen hdone] at hqueue
      obtain ⟨hleft, hnone⟩ := append_eq_nil_iff.1 hqueue
      exact ⟨hnone, (append_eq_nil_iff.1 hleft).2, hdone.imp hflags.closed hflags.backend.trans⟩
    · exact hreturn hnew

/-- Nothing is run or queued. -/
theorem Drains.silent (hflags : s.FlagsKept s') (extra : List LoopLog) (hsilent : Silent extra)
    (hlog : s'.log = s.log ++ extra)
    (hheld : s'.batch ++ s'.pendingFunctors = s.batch ++ s.pendingFunctors)
    (houtermost : Outermost s'.frames) (hrun : ∀ onTick pc, .run onTick pc ∈ s'.frames → s'.RunOk pc) :
    s'.Drains := by
  have hran : extra.filterMap LoopLog.ran? = [] :=
    filterMap_eq_nil_iff.2 fun entry hentry => (hsilent entry hentry).2.1
  refine hs.advance hflags extra hlog ?_ (fun _ => hsilent.queued) houtermost hrun fun hmem => ?_
  · rw [hran, hsilent.queued, nil_append, append_nil, hheld]
  · exact absurd rfl (hsilent _ hmem).2.2

/-- The thread goes on in other frames, which hold the same functors. -/
theorem Drains.replaced (h : s.frames = old :: callers) (frames : List LoopFrame)
    (extra : List LoopLog) (hframes : s'.frames = frames ++ callers) (hflags : s.FlagsKept s')
    (hpending : s'.pendingFunctors = s.pendingFunctors) (hlog : s'.log = s.log ++ extra)
    (hsilent : Silent extra)
    (hbatch : frames.flatMap LoopFrame.batch = old.batch) (houtermost : Outermost frames)
    (htakes : ∀ frame ∈ frames, frame.takesFunctors = true → old.takesFunctors = true)
    (hrun : ∀ onTick pc, .run onTick pc ∈ frames → s'.RunOk pc) : s'.Drains := by
  refine hs.silent hflags extra hsilent hlog ?_ ?_ fun onTick pc hmem => ?_
  · rw [batch, hframes, flatMap_append, hbatch, hpending, batch, h, flatMap_cons]
  · rw [hframes]
    exact (h ▸ hs.outermost).replaced houtermost htakes
  · rw [hframes] at hmem
    rcases mem_append.1 hmem with hnew | hold
    · exact hrun onTick pc hnew
    · exact (hs.runOk onTick pc (h ▸ mem_cons_of_mem _ hold)).kept hflags (hpending ▸ id)

/-- `processPendingFunctors` is called from a frame that may take functors. -/
theorem Drains.taken {next : LoopFrame} (h : s.frames = old :: callers)
    (hframes : s'.frames = .functors s.pendingFunctors :: next :: callers) (hflags : s.FlagsKept s')
    (hpending : s'.pendingFunctors = []) (hlog : s'.log = s.log) (htakes : old.takesFunctors = true)
    (hold : old.batch = []) (hnext : next.batch = [])
    (hrun : ∀ onTick pc, next = .run onTick pc → s'.RunOk pc) : s'.Drains := by
  have hcallers : callers.flatMap LoopFrame.batch = [] := (h ▸ hs.outermost).batch_callers htakes
  refine hs.silent hflags [] nofun (by rw [hlog, append_nil]) ?_ ?_ fun onTick pc hmem => ?_
  · have htaken : (LoopFrame.functors s.pendingFunctors).batch = s.pendingFunctors := rfl
    simp [batch, hframes, hpending, h, htaken, hnext, hold, hcallers]
  · have htop : Outermost [.functors s.pendingFunctors, next] :=
      pairwise_pair.2 fun htaking => by cases htaking
    rw [hframes]
    exact (h ▸ hs.outermost).replaced htop fun _ _ _ => htakes
  · rw [hframes] at hmem
    rcases mem_cons.1 hmem with hnew | hmem
    · cases hnew
    · rcases mem_cons.1 hmem with hnew | hmem
      · exact hrun onTick pc hnew.symm
      · exact (hs.runOk onTick pc (h ▸ mem_cons_of_mem _ hmem)).kept hflags fun _ => hpending

/-- `run` returns once it has taken everything, or has no backend. -/
theorem Drains.runReturned {onTick : Option Nat}
    (h : s.frames = .run onTick pc :: callers)
    (hdone : s.pendingFunctors = [] ∧ (s.closed = true ∨ s.backend = false)) :
    Drains { s with frames := callers, log := s.log ++ [.runReturned] } := by
  have hcallers : callers.flatMap LoopFrame.batch = [] := (h ▸ hs.outermost).batch_callers rfl
  refine hs.advance ⟨rfl, id, hs.stopClosed, .inl⟩ [.runReturned] rfl ?_ (fun _ => rfl)
    (pairwise_cons.1 (h ▸ hs.outermost)).2 (fun onTick pc hmem => ?_) fun _ => ⟨hdone.1, hcallers, hdone.2⟩
  · change callers.flatMap LoopFrame.batch ++ s.pendingFunctors = s.batch ++ s.pendingFunctors ++ []
    rw [batch, h, flatMap_cons, append_nil]
    rfl
  · exact (hs.runOk onTick pc (h ▸ mem_cons_of_mem _ hmem)).kept ⟨rfl, id, hs.stopClosed, .inl⟩ id

/-- The next functor of the batch is run. -/
theorem Drains.ran {posted : Posted} {rest : List Posted}
    (h : s.frames = .functors (posted :: rest) :: callers) :
    Drains
      { s with
        frames := (posted.callback.map LoopFrame.code).toList ++ .functors rest :: callers
        log := s.log ++ [.ran posted] } := by
  have hcode : ((posted.callback.map LoopFrame.code).toList).flatMap LoopFrame.batch = [] := by
    cases posted.callback <;> rfl
  have hrun : ∀ onTick pc, .run onTick pc ∈ (posted.callback.map LoopFrame.code).toList ++
      .functors rest :: callers → .run onTick pc ∈ callers := by
    intro onTick pc hmem
    cases hcallback : posted.callback <;> simpa [hcallback] using hmem
  refine hs.advance ⟨rfl, id, hs.stopClosed, .inl⟩ [.ran posted] rfl ?_ (fun _ => rfl) ?_
    (fun onTick pc hmem => ?_) (by simp)
  · simp only [batch, h, flatMap_append, hcode, flatMap_cons, LoopFrame.batch]
    simp [LoopLog.ran?, LoopLog.queued?]
  · have htop : Outermost ((posted.callback.map LoopFrame.code).toList ++ [.functors rest]) := by
      cases posted.callback with
      | none => exact pairwise_singleton _ _
      | some callback => exact pairwise_pair.2 fun htaking => by cases htaking
    have hall := (h ▸ hs.outermost).replaced htop (by cases posted.callback <;> simp [LoopFrame.takesFunctors])
    simpa using hall
  · exact (hs.runOk onTick pc (h ▸ mem_cons_of_mem _ (hrun onTick pc hmem))).kept
      ⟨rfl, id, hs.stopClosed, .inl⟩ id

/-- The points of `run` that a frame goes on to. -/
theorem Drains.runOk_goes (h : s.frames = old :: callers)
    (hgoes : s.Goes old frames) : ∀ onTick pc, .run onTick pc ∈ frames → s.RunOk pc := by
  have hok := fun onTick pc (hold : old = .run onTick pc) =>
    hs.runOk onTick pc (h ▸ hold ▸ mem_cons_self)
  intro onTick pc hmem
  cases hgoes with
  | run hnext =>
    cases mem_singleton.1 hmem
    exact hnext hs.stopClosed (hok _ _ rfl)
  | poll =>
    obtain ⟨rfl, rfl⟩ : onTick = _ ∧ pc = .tickRunning := by simpa using hmem
    exact hok _ .whileStop rfl
  | tick =>
    obtain ⟨rfl, rfl⟩ : onTick = _ ∧ pc = .whileRunning := by simpa using hmem
    exact hok _ .tickStop rfl
  | backendPoll => simp at hmem
  | done => cases hmem

/-- The thread of the loop goes on. -/
theorem Drains.of_move (hmove : s.Move callers s') : s'.Drains := by
  cases hmove with
  | idle => exact hs
  | goes frames wakeup h hgoes =>
    refine hs.replaced h frames [] rfl ⟨rfl, id, hs.stopClosed, .inl⟩ rfl (append_nil _).symm nofun
      hgoes.holds.2.2 hgoes.outermost.1 hgoes.outermost.2 fun onTick pc hmem => ?_
    exact (hs.runOk_goes h hgoes onTick pc hmem).kept ⟨rfl, id, hs.stopClosed, .inl⟩ id
  | hands h hhands =>
    obtain ⟨⟨hold, hbatch⟩, htakes, hrun, extra, rfl, hextra⟩ := hhands.facts
    refine hs.replaced h _ extra rfl ⟨rfl, id, hs.stopClosed, .inl⟩ rfl rfl (silent_callbacks hextra) ?_ ?_
      htakes ?_
    · rw [hold, flatMap_eq_nil_iff]
      exact hbatch
    · exact pairwise_of_forall_mem_list fun _ _ outer houter _ => hbatch outer houter
    · exact fun onTick pc hmem => absurd hmem (hrun onTick pc)
  | @armed onTick h =>
    refine hs.replaced h [.run onTick .whileRunning] [] rfl ⟨rfl, id, hs.stopClosed, fun _ => .inl rfl⟩ rfl
      (append_nil _).symm nofun rfl (pairwise_singleton _ _) (fun _ _ _ => rfl) ?_
    intro tick pc hmem
    cases mem_singleton.1 hmem
    exact .inl rfl
  | @returned onTick pc h hdone =>
    refine hs.runReturned h ?_
    rcases hdone with hbackend | rfl
    · have hempty := hs.conserved
      rw [hs.noBackend hbackend] at hempty
      exact ⟨(append_eq_nil_iff.1 hempty.symm).2, .inr hbackend⟩
    · have hok := hs.runOk onTick .returning (h ▸ mem_cons_self)
      exact ⟨hok.2, .inl hok.1⟩
  | taken wakeup h htakes =>
    have hbatch := htakes.holds
    refine hs.taken h rfl ⟨rfl, id, hs.stopClosed, .inl⟩ rfl rfl (by cases htakes <;> rfl) hbatch.1 hbatch.2 ?_
    rintro tick pc rfl
    cases htakes with
    | run hclosed => exact ⟨hclosed hs.stopClosed (hs.runOk _ _ (h ▸ mem_cons_self)), rfl⟩
  | ran h => exact hs.ran h

/-! ### Actions and calls -/

/-- A step that leaves the thread and the queue alone. -/
theorem Drains.kept (extra : List LoopLog) (hframes : s'.frames = s.frames) (hflags : s.FlagsKept s')
    (hpending : s'.pendingFunctors = s.pendingFunctors) (hlog : s'.log = s.log ++ extra)
    (hsilent : Silent extra) : s'.Drains := by
  refine hs.silent hflags extra hsilent hlog ?_ (hframes ▸ hs.outermost) fun onTick pc hmem => ?_
  · rw [batch, hframes, hpending, batch]
  · exact (hs.runOk onTick pc (hframes ▸ hmem)).kept hflags hpending.trans

theorem Drains.aside (hframes : s'.frames = s.frames) (hflags : s.FlagsKept s')
    (hpending : s'.pendingFunctors = s.pendingFunctors) (hlog : s'.log = s.log) : s'.Drains :=
  hs.kept [] hframes hflags hpending (hlog.trans (append_nil _).symm) (forall_mem_nil _)

/-- A new call on the thread of the loop. -/
theorem Drains.entered {frame : LoopFrame} (hbatch : frame.batch = [])
    (htakes : frame.takesFunctors = true → s.frames = [])
    (hrun : ∀ onTick pc, frame = .run onTick pc → s.RunOk pc) :
    Drains { s with frames := frame :: s.frames } := by
  refine hs.silent ⟨rfl, id, hs.stopClosed, .inl⟩ [] nofun (append_nil _).symm ?_
    (pairwise_cons.2 ⟨fun outer houter htaking => ?_, hs.outermost⟩) fun onTick pc hmem => ?_
  · rw [batch, flatMap_cons, hbatch]
    rfl
  · rw [htakes htaking] at houter
    cases houter
  · have hok : s.RunOk pc := (mem_cons.1 hmem).elim (fun hnew => hrun onTick pc hnew.symm) (hs.runOk onTick pc)
    exact hok.kept ⟨rfl, id, hs.stopClosed, .inl⟩ id

theorem Drains.act (action : LoopAction) (honly : s.callbacksOnlyWait (.act action)) :
    (s.act action).Drains := by
  cases action with
  | addFd fd events callback accepted =>
    simp only [EventLoop.act, addFd]
    split_ifs <;> exact hs.aside rfl ⟨rfl, id, hs.stopClosed, .inl⟩ rfl rfl
  | modifyFd fd events =>
    simp only [EventLoop.act, modifyFd]
    split <;> exact hs.aside rfl ⟨rfl, id, hs.stopClosed, .inl⟩ rfl rfl
  | removeFd _ | addTimer _ _ _ _ =>
    exact hs.aside rfl ⟨rfl, id, hs.stopClosed, .inl⟩ rfl rfl
  | cancelTimer id =>
    exact hs.kept [.timersCancelled (s.liveSerials id)] rfl ⟨rfl, fun h => h, hs.stopClosed, .inl⟩ rfl rfl
      (silent_callbacks (by simp [LoopLog.isCallback]))
  | run onTick =>
    refine hs.entered rfl (fun _ => honly) fun tick pc heq => ?_
    cases heq
    trivial
  | pollOnce => exact hs.entered rfl (fun _ => honly) (by simp)
  | pollOnceWithoutFunctors =>
    exact hs.entered rfl (fun h => by simp [LoopFrame.takesFunctors] at h) (by simp)

/-- A functor is queued only while the queue is open. -/
theorem Drains.queued (thread : Nat) (posted : Posted) (call : ThreadCall)
    (hopen : (!s.backend || s.closed) = false) :
    Drains
      { s with
        pendingFunctors := s.pendingFunctors ++ [posted]
        log := s.log ++ [.queued posted]
        calls := s.calls.insert thread call } := by
  simp only [Bool.or_eq_false_iff, Bool.not_eq_false'] at hopen
  refine hs.advance ⟨rfl, id, hs.stopClosed, .inl⟩ [.queued posted] rfl ?_ ?_ hs.outermost
    (fun onTick pc hmem => ?_) (by simp)
  · simp [batch, LoopLog.ran?, LoopLog.queued?]
  · simp [hopen.1, hopen.2]
  · have hok := hs.runOk onTick pc hmem
    cases pc with
    | returning =>
      rw [RunOk, hopen.2] at hok
      cases hok.1
    | _ => exact hok

end

end EventLoop

end OmniBinder

namespace OmniBinder.EventLoop

open List

variable {thread : Nat} {call : ThreadCall} {posted : Posted}

variable {s s' : EventLoop} {event : LoopEvent}

/-! ### The invariant of the calls -/

/-- What is known about a call that is in progress. -/
def CallOk (s : EventLoop) (thread : Nat) : ThreadCall → Prop
  | .post posted pc => posted.thread = thread ∧ posted.call < s.posts ∧
      match pc with
      | .enqueue => (∀ other ∈ s.accepted, other.thread = thread → other.call < posted.call) ∧
          (posted.afterStop = true → s.closed = true)
      | .wakeup => posted ∈ s.accepted
      | .returning result => result = true → posted ∈ s.accepted
  | .stop .close => True
  | .stop _ => s.closed = true

/-- The functors of a thread are queued in the order of its calls, and none from a call that began after
    a `stop` had returned. -/
structure PostOrder (s : EventLoop) : Prop where
  calls : ∀ (thread : Nat) (call : ThreadCall), s.calls[thread]? = some call → s.CallOk thread call
  counted : ∀ posted ∈ s.accepted, posted.call < s.posts
  beforeStop : ∀ posted ∈ s.accepted, posted.afterStop = false
  ordered : s.accepted.Pairwise fun earlier later =>
    earlier.thread = later.thread → earlier.call < later.call
  returnedQueued : ∀ posted, .postReturned posted true ∈ s.log → posted ∈ s.accepted
  stopClosed : s.stopReturned = true → s.closed = true

theorem PostOrder.init (backend : Bool) (wakeupFd : Int) : (init backend wakeupFd).PostOrder where
  calls := by simp [EventLoop.init]
  counted := by simp [EventLoop.init, accepted]
  beforeStop := by simp [EventLoop.init, accepted]
  ordered := List.Pairwise.nil
  returnedQueued := by simp [EventLoop.init]
  stopClosed := by simp [EventLoop.init]

/-- A call stays as it is while others queue nothing in its thread's name. -/
theorem CallOk.kept (h : s.CallOk thread call)
    (haccepted : s'.accepted = s.accepted) (hposts : s.posts ≤ s'.posts)
    (hclosed : s.closed = true → s'.closed = true) : s'.CallOk thread call := by
  cases call with
  | post posted pc =>
    obtain ⟨hthread, hcall, hpc⟩ := h
    refine ⟨hthread, hcall.trans_le hposts, ?_⟩
    rw [haccepted]
    cases pc with
    | enqueue => exact ⟨hpc.1, fun h => hclosed (hpc.2 h)⟩
    | wakeup => exact hpc
    | returning result => exact hpc
  | stop pc =>
    cases pc with
    | close => trivial
    | request => exact hclosed h
    | clear => exact hclosed h
    | wakeup => exact hclosed h

/-- A step that queues nothing. At most one thread moves on in its call. -/
theorem PostOrder.kept (hs : s.PostOrder) (haccepted : s'.accepted = s.accepted)
    (hposts : s.posts ≤ s'.posts) (hclosed : s.closed = true → s'.closed = true)
    (hcalls : ∀ (thread : Nat) (call : ThreadCall), s'.calls[thread]? = some call →
      s.calls[thread]? = some call ∨ s'.CallOk thread call)
    (hreturned : ∀ posted, .postReturned posted true ∈ s'.log →
      .postReturned posted true ∈ s.log ∨ posted ∈ s.accepted)
    (hstop : s'.stopReturned = true → s'.closed = true) : s'.PostOrder where
  calls thread call h := (hcalls thread call h).elim
    (fun hold => (hs.calls thread call hold).kept haccepted hposts hclosed) id
  counted posted h := (hs.counted posted (haccepted ▸ h)).trans_le hposts
  beforeStop := haccepted ▸ hs.beforeStop
  ordered := haccepted ▸ hs.ordered
  returnedQueued posted h := by
    rw [haccepted]
    exact (hreturned posted h).elim (hs.returnedQueued posted) id
  stopClosed := hstop

/-- What the thread of the loop leaves alone: the calls and what they have reported. -/
structure SameCalls (s s' : EventLoop) : Prop where
  log : ∃ extra, s'.log = s.log ++ extra ∧ extra.filterMap LoopLog.queued? = [] ∧
    ∀ posted, .postReturned posted true ∉ extra
  posts : s'.posts = s.posts
  closed : s'.closed = s.closed
  calls : s'.calls = s.calls
  stopReturned : s'.stopReturned = s.stopReturned

theorem SameCalls.of_log (hlog : s'.log = s.log) (hposts : s'.posts = s.posts)
    (hclosed : s'.closed = s.closed) (hcalls : s'.calls = s.calls)
    (hstop : s'.stopReturned = s.stopReturned) : s.SameCalls s' :=
  ⟨⟨[], by simpa using hlog, rfl, by simp⟩, hposts, hclosed, hcalls, hstop⟩

theorem sameCalls_move {callers : List LoopFrame} (h : s.Move callers s') : s.SameCalls s' := by
  cases h with
  | hands h hhands =>
    obtain ⟨-, -, -, extra, rfl, hextra⟩ := hhands.facts
    exact ⟨⟨extra, rfl, (silent_callbacks hextra).queued, fun posted hmem => by cases hextra _ hmem⟩, rfl, rfl, rfl, rfl⟩
  | returned h _ => exact ⟨⟨[.runReturned], rfl, rfl, by simp⟩, rfl, rfl, rfl, rfl⟩
  | @ran posted rest h => exact ⟨⟨[.ran posted], rfl, rfl, by simp⟩, rfl, rfl, rfl, rfl⟩
  | _ => exact .of_log rfl rfl rfl rfl rfl

theorem sameCalls_act (action : LoopAction) : s.SameCalls (s.act action) := by
  cases action with
  | addFd fd events callback accepted =>
    simp only [EventLoop.act, addFd]
    split_ifs <;> exact .of_log rfl rfl rfl rfl rfl
  | modifyFd fd events =>
    simp only [EventLoop.act, modifyFd]
    split <;> exact .of_log rfl rfl rfl rfl rfl
  | cancelTimer id =>
    exact ⟨⟨[.timersCancelled (s.liveSerials id)], rfl, rfl, by simp⟩, rfl, rfl, rfl, rfl⟩
  | _ => exact .of_log rfl rfl rfl rfl rfl

section
variable (hs : s.PostOrder)
include hs

theorem PostOrder.of_same (hsame : s.SameCalls s') : s'.PostOrder := by
  obtain ⟨extra, hlog, hqueued, hreturned⟩ := hsame.log
  refine hs.kept ?_ hsame.posts.ge (hsame.closed ▸ id) ?_ ?_ ?_
  · rw [accepted, hlog, filterMap_append, hqueued, append_nil, accepted]
  · exact fun thread call h => .inl (hsame.calls ▸ h)
  · intro posted h
    rw [hlog] at h
    exact .inl ((mem_append.1 h).resolve_right (hreturned posted))
  · rw [hsame.stopReturned, hsame.closed]
    exact hs.stopClosed

/-- A thread moves on in its call. -/
theorem PostOrder.proceeded
    (haccepted : s'.accepted = s.accepted) (hposts : s.posts ≤ s'.posts)
    (hclosed : s.closed = true → s'.closed = true) (hcalls : s'.calls = s.calls.insert thread call)
    (hcall : s'.CallOk thread call) (hlog : s'.log = s.log)
    (hstop : s'.stopReturned = s.stopReturned) : s'.PostOrder := by
  refine hs.kept haccepted hposts hclosed ?_ (fun posted h => .inl (hlog ▸ h)) ?_
  · intro other started h
    rcases Table.of_insert (hcalls ▸ h) with ⟨rfl, rfl⟩ | ⟨-, hold⟩
    · exact .inr hcall
    · exact .inl hold
  · intro h
    exact hclosed (hs.stopClosed (hstop ▸ h))

/-- The thread queues its functor, after all that it has queued before. -/
theorem PostOrder.queued
    (hcall : s.calls[thread]? = some (.post posted .enqueue)) (hopen : s.closed = false) :
    PostOrder
      { s with
        pendingFunctors := s.pendingFunctors ++ [posted]
        log := s.log ++ [.queued posted]
        calls := s.calls.insert thread (.post posted .wakeup) } := by
  obtain ⟨hthread, hcounted, hbefore, hstop⟩ := hs.calls thread _ hcall
  have haccepted : (s.log ++ [LoopLog.queued posted]).filterMap LoopLog.queued? =
      s.accepted ++ [posted] := filterMap_append
  have hfresh : posted.afterStop = false := by
    cases hafter : posted.afterStop with
    | false => rfl
    | true =>
      rw [hstop hafter] at hopen
      cases hopen
  refine ⟨?_, ?_, ?_, ?_, ?_, hs.stopClosed⟩
  · intro other call h
    rcases Table.of_insert h with ⟨rfl, rfl⟩ | ⟨heq, h⟩
    · refine ⟨hthread, hcounted, ?_⟩
      rw [accepted, haccepted]
      exact mem_append_right _ (mem_singleton_self _)
    · have hold := hs.calls other call h
      cases call with
      | stop pc => cases pc <;> exact hold
      | post waiting pc =>
        refine ⟨hold.1, hold.2.1, ?_⟩
        rw [accepted, haccepted]
        cases pc with
        | enqueue =>
          -- The functor that is queued is one of another thread.
          refine ⟨forall_mem_append.2 ⟨hold.2.2.1, forall_mem_singleton.2 fun hsame => ?_⟩, hold.2.2.2⟩
          exact absurd (hthread.symm.trans hsame) heq
        | wakeup => exact mem_append_left _ hold.2.2
        | returning result => exact fun hresult => mem_append_left _ (hold.2.2 hresult)
  · rw [accepted, haccepted]
    exact forall_mem_append.2 ⟨hs.counted, forall_mem_singleton.2 hcounted⟩
  · rw [accepted, haccepted]
    exact forall_mem_append.2 ⟨hs.beforeStop, forall_mem_singleton.2 hfresh⟩
  · rw [accepted, haccepted]
    refine pairwise_append.2 ⟨hs.ordered, pairwise_singleton _ _, ?_⟩
    intro queued hqueued new hnew hsame
    cases mem_singleton.1 hnew
    exact hbefore queued hqueued (hsame.trans hthread)
  · intro queued h
    rw [accepted, haccepted]
    exact mem_append_left _ (hs.returnedQueued queued (by simpa using h))

theorem PostOrder.proceedPost {pc : PostPc}
    (hcall : s.calls[thread]? = some (.post posted pc)) : (s.proceedPost thread posted pc).PostOrder := by
  have hok := hs.calls thread _ hcall
  cases pc with
  | enqueue =>
    simp only [EventLoop.proceedPost]
    split_ifs with hclosed
    · exact hs.proceeded rfl le_rfl id rfl ⟨hok.1, hok.2.1, fun h => by cases h⟩ rfl rfl
    · have hopen : s.closed = false := by
        simp only [Bool.or_eq_true, not_or, Bool.not_eq_true] at hclosed
        exact hclosed.2
      exact hs.queued hcall hopen
  | wakeup =>
    exact hs.proceeded rfl le_rfl id rfl ⟨hok.1, hok.2.1, fun _ => hok.2.2⟩ rfl rfl
  | returning result =>
    have haccepted : (s.log ++ [LoopLog.postReturned posted result]).filterMap LoopLog.queued? =
        s.accepted := by
      rw [filterMap_append, accepted]
      exact append_nil _
    refine hs.kept haccepted le_rfl id ?_ ?_ hs.stopClosed
    · exact fun _ _ h => .inl (Table.of_erase h).2
    · intro other h
      rcases mem_append.1 h with hold | hnew
      · exact .inl hold
      · cases mem_singleton.1 hnew
        exact .inr (hok.2.2 rfl)

theorem PostOrder.proceedStop {pc : StopPc}
    (hcall : s.calls[thread]? = some (.stop pc)) : (s.proceedStop thread pc).PostOrder := by
  have hok := hs.calls thread _ hcall
  cases pc with
  | close => exact hs.proceeded rfl le_rfl (fun _ => rfl) rfl rfl rfl rfl
  | request => exact hs.proceeded rfl le_rfl id rfl hok rfl rfl
  | clear => exact hs.proceeded rfl le_rfl id rfl hok rfl rfl
  | wakeup =>
    exact hs.kept rfl le_rfl id (fun _ _ h => .inl (Table.of_erase h).2) (fun _ h => .inl h) fun _ => hok

theorem PostOrder.callWith (thread : Nat) (request : ThreadRequest) :
    (s.callWith thread request).PostOrder := by
  cases request with
  | post functor =>
    exact hs.proceeded rfl (Nat.le_succ _) id rfl
      ⟨rfl, Nat.lt_succ_self _, fun other h _ => hs.counted other h, hs.stopClosed⟩ rfl rfl
  | stop => exact hs.proceeded rfl le_rfl id rfl trivial rfl rfl

/-! ### Steps and runs -/

theorem PostOrder.proceed (thread : Nat) : (s.proceed thread).PostOrder := by
  unfold EventLoop.proceed
  split
  · exact hs
  · rename_i posted pc hcall
    exact hs.proceedPost hcall
  · rename_i pc hcall
    exact hs.proceedStop hcall

theorem PostOrder.step (event : LoopEvent) : (s.step event).PostOrder := by
  rcases step_cases s event with ⟨callers, hmove⟩ | ⟨action, rfl, hstep⟩ | ⟨thread, request, hstep⟩ |
    ⟨thread, hstep⟩
  · exact hs.of_same (sameCalls_move hmove)
  · exact hstep ▸ hs.of_same (sameCalls_act action)
  · exact hstep ▸ hs.callWith thread request
  · exact hstep ▸ hs.proceed thread

end

theorem Drains.proceed (hs : s.Drains) (hcalls : s.PostOrder) (thread : Nat) :
    (s.proceed thread).Drains := by
  unfold EventLoop.proceed
  split
  · exact hs
  · rename_i posted pc hcall
    cases pc with
    | enqueue =>
      simp only [proceedPost]
      split_ifs with hclosed
      · exact hs.aside rfl ⟨rfl, id, hs.stopClosed, .inl⟩ rfl rfl
      · exact hs.queued thread posted _ (Bool.eq_false_of_not_eq_true hclosed)
    | wakeup => exact hs.aside rfl ⟨rfl, id, hs.stopClosed, .inl⟩ rfl rfl
    | returning result =>
      exact hs.kept [.postReturned posted result] rfl ⟨rfl, id, hs.stopClosed, .inl⟩ rfl rfl
        (by simp [Silent, LoopLog.queued?, LoopLog.ran?])
  · rename_i pc hcall
    have hok := hcalls.calls thread _ hcall
    cases pc with
    | close => exact hs.aside rfl ⟨rfl, fun _ => rfl, fun _ => rfl, .inl⟩ rfl rfl
    | request => exact hs.aside rfl ⟨rfl, id, fun _ => hok, .inl⟩ rfl rfl
    | clear =>
      exact hs.aside rfl ⟨rfl, id, hs.stopClosed, fun _ => .inr hok⟩ rfl rfl
    | wakeup => exact hs.aside rfl ⟨rfl, id, hs.stopClosed, .inl⟩ rfl rfl

theorem Drains.step (hs : s.Drains) (hcalls : s.PostOrder) (honly : s.callbacksOnlyWait event) :
    (s.step event).Drains := by
  rcases step_cases s event with ⟨callers, hmove⟩ | ⟨action, rfl, hstep⟩ | ⟨thread, request, hstep⟩ |
    ⟨thread, hstep⟩
  · exact hs.of_move hmove
  · exact hstep ▸ hs.act action honly
  · rw [hstep]
    cases request <;> exact hs.aside rfl ⟨rfl, id, hs.stopClosed, .inl⟩ rfl rfl
  · exact hstep ▸ hs.proceed hcalls thread

/-- No functor is queued twice. -/
theorem PostOrder.nodup (hs : s.PostOrder) : s.accepted.Nodup :=
  hs.ordered.imp fun hlt heq => (hlt (congrArg Posted.thread heq)).ne (congrArg Posted.call heq)

/-- However the threads are interleaved, once `run` has returned every functor whose `post` returned true
    was run exactly once. The functors of a thread are run in the order of its calls, and a call that
    begins after a `stop` has returned gets false. -/
theorem posted_functors_run (backend : Bool) (wakeupFd : Int) (events : List LoopEvent)
    (honly : Machine.RunsUnder step callbacksOnlyWait (EventLoop.init backend wakeupFd) events) :
    let s := Machine.run step (EventLoop.init backend wakeupFd) events
    (.runReturned ∈ s.log → ∀ posted, .postReturned posted true ∈ s.log →
      s.executed.count posted = 1) ∧
    (s.executed.Pairwise fun earlier later =>
      earlier.thread = later.thread → earlier.call < later.call) ∧
    ∀ posted result, .postReturned posted result ∈ s.log → posted.afterStop = true →
      result = false := by
  intro s
  obtain ⟨hdrains, hcalls⟩ : s.Drains ∧ s.PostOrder :=
    Machine.run_invariant (P := fun s => s.Drains ∧ s.PostOrder)
      (fun s event hs hevent => ⟨hs.1.step hs.2 hevent, hs.2.step event⟩) honly
      ⟨.init backend wakeupFd, .init backend wakeupFd⟩
  refine ⟨fun hreturned posted hposted => ?_, ?_, fun posted result hposted hafter => ?_⟩
  · have hall : s.accepted = s.executed := by
      obtain ⟨hpending, hbatch, -⟩ := hdrains.returned hreturned
      rw [hdrains.conserved, hpending, hbatch, append_nil, append_nil]
    rw [← hall]
    exact count_eq_one_of_mem hcalls.nodup (hcalls.returnedQueued posted hposted)
  · have hordered := hcalls.ordered
    rw [hdrains.conserved, append_assoc] at hordered
    exact (pairwise_append.1 hordered).1
  · cases result with
    | false => rfl
    | true =>
      have hbefore := hcalls.beforeStop posted (hcalls.returnedQueued posted hposted)
      rw [hafter] at hbefore
      cases hbefore

/-- A thread posts a functor while the loop polls, the functor waits for a reply, and another thread
    stops the loop. -/
def postedAndStopped : List LoopEvent :=
  [.act (.run none)] ++ List.replicate 5 (.advance 0 none) ++
  [.call 5 (.post (some 9)), .proceed 5, .proceed 5, .proceed 5, .advance 0 (some [])] ++
  List.replicate 4 (.advance 0 none) ++
  [.act .pollOnceWithoutFunctors, .advance 0 none, .advance 0 (some [])] ++
  List.replicate 3 (.advance 0 none) ++ [.leave] ++
  [.call 6 .stop, .proceed 6, .proceed 6, .proceed 6, .proceed 6] ++
  List.replicate 7 (.advance 0 none)

theorem functor_run_before_return :
    let s := Machine.run step (EventLoop.init true 3) postedAndStopped
    .runReturned ∈ s.log ∧ .postReturned ⟨some 9, 5, 0, false⟩ true ∈ s.log ∧
      s.executed.count ⟨some 9, 5, 0, false⟩ = 1 := by
  have honly : Machine.RunsUnder step callbacksOnlyWait (EventLoop.init true 3) postedAndStopped := by
    decide +kernel
  have hreturned : .runReturned ∈ (Machine.run step (EventLoop.init true 3) postedAndStopped).log := by
    decide +kernel
  have hposted : .postReturned ⟨some 9, 5, 0, false⟩ true ∈
      (Machine.run step (EventLoop.init true 3) postedAndStopped).log := by
    decide +kernel
  exact ⟨hreturned, hposted,
    (posted_functors_run true 3 postedAndStopped honly).1 hreturned _ hposted⟩

end OmniBinder.EventLoop
