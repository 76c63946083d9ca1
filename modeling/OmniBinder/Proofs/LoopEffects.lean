/-
Module: OmniBinder.Proofs.LoopEffects
Purpose: What a step of the event loop does to the descriptors and timers, to the batches in progress
  and to the expired callbacks that wait for their turn; which registration the events of a poll reach.
Trusted boundary: none
Main exports: EventLoop.effect_step, EventLoop.event_reaches_reused_number
-/
import OmniBinder.Runtime.LoopThread

namespace OmniBinder

open List

variable {frames : List LoopFrame}

/-! ### What the frames hold -/

namespace LoopFrame

/-- What a frame has left of its batch. -/
def undelivered : LoopFrame → List Undelivered
  | .poll _ (.dispatch batch) => batch
  | _ => []

attribute [simp] undelivered expired

/-- The functors that a frame has taken and not run yet. -/
def batch : LoopFrame → List Posted
  | .functors rest => rest
  | _ => []

end LoopFrame

/-- The entries that a batch or a timer makes. -/
def LoopLog.isCallback : LoopLog → Bool
  | .fdCalled _ _ | .timersCancelled _ | .timerStarted _ => true
  | _ => false

variable {callers : List LoopFrame}

namespace EventLoop

variable {s s' : EventLoop}

/-- The events that are not dispatched yet, over all polls in progress. -/
def undelivered (s : EventLoop) : List Undelivered := s.frames.flatMap LoopFrame.undelivered

/-! ### Effects -/

/-- The descriptors and the timers stay as they are. -/
structure SameTables (s s' : EventLoop) : Prop where
  fdEntries : s'.fdEntries = s.fdEntries
  timers : s'.timers = s.timers
  registrations : s'.registrations = s.registrations
  timersAdded : s'.timersAdded = s.timersAdded

theorem SameTables.refl (s : EventLoop) : s.SameTables s := ⟨rfl, rfl, rfl, rfl⟩

/-- What a step can do. -/
inductive Effect (s : EventLoop) : LoopEvent → EventLoop → Prop
  /-- Flow of control, functors and calls. -/
  | control {event s'} (htables : s.SameTables s') (hundelivered : s'.undelivered = s.undelivered)
      (hwaiting : s'.waiting = s.waiting) (extra : List LoopLog) (hlog : s'.log = s.log ++ extra)
      (hextra : ∀ entry ∈ extra, entry.isCallback = false) : Effect s event s'
  /-- The backend returns a batch. -/
  | polled {event s'} (ready : List ReadyEvent) (htables : s.SameTables s')
      (hundelivered : s'.undelivered = s.batchOf ready ++ s.undelivered)
      (hwaiting : s'.waiting = s.waiting) (hlog : s'.log = s.log) : Effect s event s'
  /-- An event has its turn, and finds no callback. -/
  | skipped {event s'} (skipped : Undelivered) (htables : s.SameTables s')
      (hundelivered : s.undelivered = skipped :: s'.undelivered)
      (hwaiting : s'.waiting = s.waiting) (hlog : s'.log = s.log) : Effect s event s'
  /-- An event has its turn, and the callback of its descriptor is called. -/
  | delivered {event s'} (delivered : Undelivered) (entry : FdEntry) (htables : s.SameTables s')
      (hundelivered : s.undelivered = delivered :: s'.undelivered)
      (hwaiting : s'.waiting = s.waiting) (hentry : s.fdEntries[delivered.fd]? = some entry)
      (hlog : s'.log = s.log ++ [.fdCalled entry.registration delivered.inForce]) : Effect s event s'
  /-- The timers are scanned. -/
  | scanned {event s'} (now : Int) (hfds : s'.fdEntries = s.fdEntries)
      (hregistrations : s'.registrations = s.registrations) (hadded : s'.timersAdded = s.timersAdded)
      (htimers : s'.timers = s.timers.filterMap (Timer.afterScan now))
      (hundelivered : s'.undelivered = s.undelivered)
      (hwaiting : s'.waiting = (s.timers.filter (Timer.due now)).map Timer.expired ++ s.waiting)
      (hlog : s'.log = s.log) : Effect s event s'
  /-- An expired timer has its turn; without a callback nothing is called. -/
  | expired {event s'} (timer : Expired) (htables : s.SameTables s')
      (hundelivered : s'.undelivered = s.undelivered) (hwaiting : s.waiting = timer :: s'.waiting)
      (hlog : s'.log = s.log ∨ s'.log = s.log ++ [.timerStarted timer.serial]) : Effect s event s'
  /-- Code on the thread of the loop acts. -/
  | acted (action : LoopAction) : Effect s (.act action) (s.act action)

theorem undelivered_of_frames (h : s.frames = frames ++ callers) :
    s.undelivered = frames.flatMap LoopFrame.undelivered ++ callers.flatMap LoopFrame.undelivered := by
  rw [undelivered, h, flatMap_append]

theorem waiting_of_frames (h : s.frames = frames ++ callers) :
    s.waiting = frames.flatMap LoopFrame.expired ++ callers.flatMap LoopFrame.expired := by
  rw [waiting, h, flatMap_append]

namespace Effect

variable {event : LoopEvent}

theorem refl (s : EventLoop) (event : LoopEvent) : s.Effect event s :=
  .control (.refl s) rfl rfl [] (append_nil _).symm (by simp)

/-- The thread goes on in other frames, which hold the same. -/
theorem replaced {old : LoopFrame} (h : s.frames = old :: callers) (frames : List LoopFrame)
    (extra : List LoopLog) (hframes : s'.frames = frames ++ callers)
    (hundelivered : frames.flatMap LoopFrame.undelivered = old.undelivered)
    (hexpired : frames.flatMap LoopFrame.expired = old.expired) (htables : s.SameTables s')
    (hlog : s'.log = s.log ++ extra) (hextra : ∀ entry ∈ extra, entry.isCallback = false) :
    s.Effect event s' := by
  have hold : s.frames = [old] ++ callers := h
  refine .control htables ?_ ?_ extra hlog hextra
  · rw [undelivered_of_frames hframes, undelivered_of_frames hold, hundelivered]
    simp
  · rw [waiting_of_frames hframes, waiting_of_frames hold, hexpired]
    simp

end Effect

/-! ### The thread of the loop -/

/-- What is known about the loop at a point of `run`. -/
def RunOk (s : EventLoop) : RunPc → Prop
  | .start | .arm => True
  | .whileRunning | .whileStop | .tickRunning | .tickStop => s.running = true ∨ s.closed = true
  | .drain => s.closed = true
  | .returning => s.closed = true ∧ s.pendingFunctors = []

/-- The next point of `run` is one that may be reached, if this one was and a `stop` closes the queue
    first. -/
def RunGoes (s : EventLoop) (pc next : RunPc) : Prop :=
  (s.stopRequested = true → s.closed = true) → s.RunOk pc → s.RunOk next

/-- A frame gives way to others, and hands nothing out. -/
inductive Goes (s : EventLoop) : LoopFrame → List LoopFrame → Prop
  | run {onTick : Option Nat} {pc next : RunPc} (hnext : s.RunGoes pc next) :
      s.Goes (.run onTick pc) [.run onTick next]
  | poll {onTick : Option Nat} :
      s.Goes (.run onTick .whileStop) [.poll true .start, .run onTick .tickRunning]
  | tick {tick : Nat} :
      s.Goes (.run (some tick) .tickStop) [.code tick, .run (some tick) .whileRunning]
  | backendPoll {b : Bool} : s.Goes (.poll b .start) [.poll b .backendPoll]
  | done {old : LoopFrame} (hundelivered : old.undelivered = []) (hexpired : old.expired = [])
      (hbatch : old.batch = []) : s.Goes old []

/-- The frames that take the pending functors, and what they go on as. -/
inductive Takes (s : EventLoop) : LoopFrame → LoopFrame → Prop
  | run {onTick : Option Nat} {pc : RunPc} (hclosed : s.RunGoes pc .drain) :
      s.Takes (.run onTick pc) (.run onTick .returning)
  | start : s.Takes (.poll true .start) (.poll true .backendPoll)
  | functors : s.Takes (.poll true .functors) (.poll true .returning)

/-- A frame hands out something that it holds or that the backend or the clock brings: the frames it gives
    way to, the timers and the log after that. -/
inductive Hands (s : EventLoop) : LoopFrame → List LoopFrame → List Timer → List LoopLog → Prop
  | polled {b : Bool} (ready : List ReadyEvent) :
      s.Hands (.poll b .backendPoll) [.poll b (.dispatch (s.batchOf ready))] s.timers s.log
  | skipped {b : Bool} {head : Undelivered} {batch : List Undelivered} :
      s.Hands (.poll b (.dispatch (head :: batch))) [.poll b (.dispatch batch)] s.timers s.log
  | delivered {b : Bool} {head : Undelivered} {batch : List Undelivered} {entry : FdEntry}
      (callback : Nat) (hentry : s.fdEntries[head.fd]? = some entry) :
      s.Hands (.poll b (.dispatch (head :: batch))) [.code callback, .poll b (.dispatch batch)]
        s.timers (s.log ++ [.fdCalled entry.registration head.inForce])
  | scanned {b : Bool} (now : Int) :
      s.Hands (.poll b (.dispatch []))
        [.timers ((s.timers.filter (Timer.due now)).map Timer.expired), .poll b .functors]
        (s.timers.filterMap (Timer.afterScan now)) s.log
  | expired {timer : Expired} {expired : List Expired} :
      s.Hands (.timers (timer :: expired)) [.timers expired] s.timers s.log
  | started {timer : Expired} {expired : List Expired} (callback : Nat) :
      s.Hands (.timers (timer :: expired)) [.code callback, .timers expired] s.timers
        (s.log ++ [.timerStarted timer.serial])

/-- What the thread of the loop does in its innermost frame. -/
inductive Move (s : EventLoop) (callers : List LoopFrame) : EventLoop → Prop
  | idle : Move s callers s
  | goes {old : LoopFrame} (frames : List LoopFrame) (wakeup : Bool) (h : s.frames = old :: callers)
      (hgoes : s.Goes old frames) :
      Move s callers { s with functorWakeupPending := wakeup, frames := frames ++ callers }
  | hands {old : LoopFrame} {frames : List LoopFrame} {timers : List Timer} {log : List LoopLog}
      (h : s.frames = old :: callers) (hhands : s.Hands old frames timers log) :
      Move s callers { s with timers, frames := frames ++ callers, log }
  | armed {onTick : Option Nat} (h : s.frames = .run onTick .arm :: callers) :
      Move s callers { s with running := true, frames := .run onTick .whileRunning :: callers }
  | returned {onTick : Option Nat} {pc : RunPc} (h : s.frames = .run onTick pc :: callers)
      (hdone : s.backend = false ∨ pc = .returning) :
      Move s callers { s with frames := callers, log := s.log ++ [.runReturned] }
  | taken {old next : LoopFrame} (wakeup : Bool) (h : s.frames = old :: callers)
      (htakes : s.Takes old next) :
      Move s callers
        { s with
          functorWakeupPending := wakeup
          pendingFunctors := []
          frames := .functors s.pendingFunctors :: next :: callers }
  | ran {posted : Posted} {rest : List Posted} (h : s.frames = .functors (posted :: rest) :: callers) :
      Move s callers
        { s with
          frames := (posted.callback.map LoopFrame.code).toList ++ .functors rest :: callers
          log := s.log ++ [.ran posted] }

theorem move_advanceRun {onTick : Option Nat} {pc : RunPc} (h : s.frames = .run onTick pc :: callers) :
    s.Move callers (s.advanceRun onTick callers pc) := by
  have hnext : ∀ next : RunPc, s.RunGoes pc next →
      s.Move callers { s with frames := .run onTick next :: callers } := fun next hgoes =>
    .goes [.run onTick next] s.functorWakeupPending h (.run hgoes)
  cases pc with
  | start =>
    simp only [advanceRun]
    split_ifs with hbackend hstop
    · exact .returned h (.inl (by simpa using hbackend))
    · exact .taken s.functorWakeupPending h (.run fun hclosed _ => hclosed hstop)
    · exact hnext .arm fun _ _ => trivial
  | arm => exact .armed h
  | whileRunning =>
    refine hnext _ fun _ hok => ?_
    cases hrunning : s.running with
    | true => exact .inl hrunning
    | false => exact hok.resolve_left (by simp [hrunning])
  | whileStop =>
    simp only [advanceRun]
    split_ifs with hstop
    · exact hnext .drain fun hclosed _ => hclosed hstop
    · exact .goes [.poll true .start, .run onTick .tickRunning] s.functorWakeupPending h .poll
  | tickRunning =>
    simp only [advanceRun]
    split_ifs with htick
    · exact hnext .tickStop fun _ => id
    · exact hnext .whileRunning fun _ => id
  | tickStop =>
    simp only [advanceRun]
    split
    · rename_i tick _
      exact .goes [.code tick, .run (some tick) .whileRunning] s.functorWakeupPending h .tick
    · exact hnext .whileRunning fun _ => id
  | drain => exact .taken s.functorWakeupPending h (.run fun _ => id)
  | returning => exact .returned h (.inr rfl)

theorem move_dispatch {b : Bool} {head : Undelivered} {batch : List Undelivered}
    (h : s.frames = .poll b (.dispatch (head :: batch)) :: callers) :
    s.Move callers (s.dispatch head (.poll b (.dispatch batch) :: callers)) := by
  unfold dispatch
  split_ifs with hwakeup
  · exact .hands h .skipped
  cases hentry : s.fdEntries[head.fd]? with
  | none => exact .hands h .skipped
  | some entry =>
    dsimp only
    cases hcallback : entry.callback with
    | none => exact .hands h .skipped
    | some callback => exact .hands h (.delivered callback hentry)

theorem move_advancePoll {b : Bool} {pc : PollPc} (now : Int) (ready : Option (List ReadyEvent))
    (h : s.frames = .poll b pc :: callers) :
    s.Move callers (s.advancePoll b callers now ready pc) := by
  cases pc with
  | start =>
    simp only [advancePoll]
    split_ifs with hbackend hpending
    · exact .goes [] s.functorWakeupPending h (.done rfl rfl rfl)
    · obtain rfl : b = true := (Bool.and_eq_true_iff.1 hpending).1
      exact .taken false h .start
    · exact .goes [.poll b .backendPoll] s.functorWakeupPending h .backendPoll
  | backendPoll =>
    cases ready with
    | none => exact .goes [] s.functorWakeupPending h (.done rfl rfl rfl)
    | some ready => exact .hands h (.polled ready)
  | dispatch batch =>
    cases batch with
    | cons head batch => exact move_dispatch h
    | nil => exact .hands h (.scanned now)
  | functors =>
    simp only [advancePoll]
    split_ifs with hfunctors
    · subst hfunctors
      exact .taken s.functorWakeupPending h .functors
    · exact .goes [] _ h (.done rfl rfl rfl)
  | returning => exact .goes [] s.functorWakeupPending h (.done rfl rfl rfl)

theorem move_advance (now : Int) (ready : Option (List ReadyEvent)) :
    ∃ callers, s.Move callers (s.advance now ready) := by
  unfold advance
  split
  · exact ⟨[], .idle⟩
  · exact ⟨[], .idle⟩
  · rename_i onTick pc callers h
    exact ⟨callers, move_advanceRun h⟩
  · rename_i b pc callers h
    exact ⟨callers, move_advancePoll now ready h⟩
  · rename_i callers h
    exact ⟨callers, .goes [] s.functorWakeupPending h (.done rfl rfl rfl)⟩
  · rename_i timer expired callers h
    cases timer.callback with
    | none => exact ⟨callers, .hands h .expired⟩
    | some callback => exact ⟨callers, .hands h (.started callback)⟩
  · rename_i callers h
    exact ⟨callers, .goes [] s.functorWakeupPending h (.done rfl rfl rfl)⟩
  · rename_i posted rest callers h
    exact ⟨callers, .ran h⟩

theorem move_leave : ∃ callers, s.Move callers s.leave := by
  unfold leave
  split
  · rename_i callback callers h
    exact ⟨callers, .goes [] s.functorWakeupPending h (.done rfl rfl rfl)⟩
  · exact ⟨[], .idle⟩

/-- What every step is. -/
theorem step_cases (s : EventLoop) (event : LoopEvent) :
    (∃ callers, s.Move callers (s.step event)) ∨ (∃ action, event = .act action ∧ s.step event = s.act action) ∨
      (∃ thread request, s.step event = s.callWith thread request) ∨
      ∃ thread, s.step event = s.proceed thread := by
  cases event with
  | advance now ready =>
    simp only [step]
    split_ifs
    · exact .inl ⟨[], .idle⟩
    · exact .inl (move_advance now ready)
  | act action =>
    simp only [step]
    split_ifs
    · exact .inr (.inl ⟨action, rfl, rfl⟩)
    · exact .inl ⟨[], .idle⟩
  | leave =>
    simp only [step]
    split_ifs
    · exact .inl move_leave
    · exact .inl ⟨[], .idle⟩
  | call thread request =>
    simp only [step]
    split_ifs
    · exact .inr (.inr (.inl ⟨thread, request, rfl⟩))
    · exact .inl ⟨[], .idle⟩
  | proceed thread => exact .inr (.inr (.inr ⟨thread, rfl⟩))

theorem Goes.holds {old : LoopFrame} (h : s.Goes old frames) :
    frames.flatMap LoopFrame.undelivered = old.undelivered ∧
      frames.flatMap LoopFrame.expired = old.expired ∧
      frames.flatMap LoopFrame.batch = old.batch := by
  cases h with
  | done hundelivered hexpired hbatch => exact ⟨hundelivered.symm, hexpired.symm, hbatch.symm⟩
  | _ => exact ⟨rfl, rfl, rfl⟩

theorem Takes.holds {old next : LoopFrame} (h : s.Takes old next) :
    old.batch = [] ∧ next.batch = [] := by
  cases h <;> exact ⟨rfl, rfl⟩

theorem Move.effect (h : s.Move callers s') (event : LoopEvent) : s.Effect event s' := by
  cases h with
  | idle => exact .refl s event
  | goes frames wakeup h hgoes =>
    exact .replaced h frames [] rfl hgoes.holds.1 hgoes.holds.2.1 ⟨rfl, rfl, rfl, rfl⟩
      (append_nil _).symm (by simp)
  | armed h => exact .replaced h [_] [] rfl rfl rfl ⟨rfl, rfl, rfl, rfl⟩ (append_nil _).symm (by simp)
  | returned h _ =>
    exact .replaced h [] [.runReturned] rfl rfl rfl ⟨rfl, rfl, rfl, rfl⟩ rfl
      (by simp [LoopLog.isCallback])
  | taken wakeup h htakes =>
    cases htakes <;>
      exact .replaced h [_, _] [] rfl rfl rfl ⟨rfl, rfl, rfl, rfl⟩ (append_nil _).symm (by simp)
  | hands h hhands =>
    cases hhands with
    | polled ready =>
      exact .polled ready ⟨rfl, rfl, rfl, rfl⟩ (by simp [undelivered, h]) (by simp [waiting, h]) rfl
    | @skipped b head batch =>
      exact .skipped head ⟨rfl, rfl, rfl, rfl⟩ (by simp [undelivered, h]) (by simp [waiting, h]) rfl
    | delivered callback hentry =>
      exact .delivered _ _ ⟨rfl, rfl, rfl, rfl⟩ (by simp [undelivered, h]) (by simp [waiting, h])
        hentry rfl
    | scanned now =>
      exact .scanned now rfl rfl rfl rfl (by simp [undelivered, h]) (by simp [waiting, h]) rfl
    | @expired timer rest =>
      exact .expired timer ⟨rfl, rfl, rfl, rfl⟩ (by simp [undelivered, h]) (by simp [waiting, h])
        (.inl rfl)
    | started callback =>
      exact .expired _ ⟨rfl, rfl, rfl, rfl⟩ (by simp [undelivered, h]) (by simp [waiting, h])
        (.inr rfl)
  | @ran posted rest h =>
    refine .replaced h ((posted.callback.map LoopFrame.code).toList ++ [.functors rest]) [.ran posted]
      (by simp) ?_ ?_ ⟨rfl, rfl, rfl, rfl⟩ rfl (by simp [LoopLog.isCallback])
    · cases posted.callback <;> simp
    · cases posted.callback <;> simp

section
variable (event : LoopEvent)

/-! ### The other steps -/

/-- A thread that calls or goes on in its call leaves the thread of the loop where it is. -/
theorem Effect.of_call (extra : List LoopLog) (hframes : s'.frames = s.frames)
    (htables : s.SameTables s') (hlog : s'.log = s.log ++ extra)
    (hextra : ∀ entry ∈ extra, entry.isCallback = false) : s.Effect event s' := by
  refine .control htables ?_ ?_ extra hlog hextra
  · rw [undelivered, hframes, undelivered]
  · rw [waiting, hframes, waiting]

theorem effect_proceed (thread : Nat) : s.Effect event (s.proceed thread) := by
  unfold proceed
  split
  · exact .refl s event
  · rename_i posted pc h
    cases pc with
    | enqueue =>
      simp only [proceedPost]
      split_ifs with hclosed
      · exact .of_call event [] rfl ⟨rfl, rfl, rfl, rfl⟩ (append_nil _).symm (by simp)
      · exact .of_call event [.queued posted] rfl ⟨rfl, rfl, rfl, rfl⟩ rfl
          (by simp [LoopLog.isCallback])
    | wakeup => exact .of_call event [] rfl ⟨rfl, rfl, rfl, rfl⟩ (append_nil _).symm (by simp)
    | returning result =>
      exact .of_call event [.postReturned posted result] rfl ⟨rfl, rfl, rfl, rfl⟩ rfl
        (by simp [LoopLog.isCallback])
  · rename_i pc h
    cases pc <;>
      exact .of_call event [] rfl ⟨rfl, rfl, rfl, rfl⟩ (append_nil _).symm (by simp)

end

/-- What every step does. -/
theorem effect_step (s : EventLoop) (event : LoopEvent) : s.Effect event (s.step event) := by
  rcases step_cases s event with ⟨callers, hmove⟩ | ⟨action, rfl, hstep⟩ | ⟨thread, request, hstep⟩ |
    ⟨thread, hstep⟩
  · exact hmove.effect event
  · exact hstep ▸ .acted action
  · rw [hstep]
    cases request <;>
      exact .of_call _ [] rfl ⟨rfl, rfl, rfl, rfl⟩ (append_nil _).symm (by simp)
  · exact hstep ▸ effect_proceed _ thread

end EventLoop

end OmniBinder

namespace OmniBinder.EventLoop

open List

variable {s s' : EventLoop} {event : LoopEvent}

/-- A descriptor with an undelivered event is still registered as it was, or not at all. -/
def Current (s : EventLoop) : Prop :=
  ∀ event ∈ s.undelivered, ∀ entry : FdEntry, s.fdEntries[event.fd]? = some entry →
    event.inForce = some entry.registration

/-- Every callback that was called for an event belongs to the registration of the event. -/
def ReachedInForce (s : EventLoop) : Prop :=
  ∀ registration inForce, .fdCalled registration inForce ∈ s.log → inForce = some registration

/-- No number is registered while a poll in progress still has an event for it. -/
def batchKept (s : EventLoop) : LoopEvent → Prop
  | .act (.addFd fd _ _ _) =>
    s.fdEntries.contains fd = true ∨ ∀ event ∈ s.undelivered, event.fd ≠ fd
  | _ => True

instance (s : EventLoop) (event : LoopEvent) : Decidable (s.batchKept event) := by
  unfold batchKept
  split <;> infer_instance

variable {fd number : Int} {entry : FdEntry}

/-! ### Changes of the descriptors -/

/-- Registering concerns the one number, which was not registered before. -/
theorem getElem?_addFd {events : UInt32} {callback : Option Nat} {accepted : Bool}
    (h : (s.addFd fd events callback accepted).fdEntries[number]? = some entry) :
    s.fdEntries[number]? = some entry ∨ (number = fd ∧ s.fdEntries.contains fd = false) := by
  unfold addFd at h
  split_ifs at h with hnegative hcontains hrefused
  · exact .inl h
  · exact .inl h
  · obtain ⟨hne, h⟩ := Table.of_erase h
    exact .inl ((Table.getElem?_insert_of_ne _ hne _).symm.trans h)
  · exact (Table.of_insert h).symm.imp And.right fun hnew =>
      ⟨hnew.1, Bool.eq_false_of_not_eq_true hcontains⟩

theorem getElem?_modifyFd {events : UInt32}
    (h : (s.modifyFd fd events).fdEntries[number]? = some entry) :
    ∃ old, s.fdEntries[number]? = some old ∧ old.registration = entry.registration := by
  unfold modifyFd at h
  cases hold : s.fdEntries[fd]? with
  | none =>
    rw [hold] at h
    exact ⟨entry, h, rfl⟩
  | some old =>
    rw [hold] at h
    rcases Table.of_insert h with ⟨rfl, rfl⟩ | ⟨-, h⟩
    · exact ⟨old, hold, rfl⟩
    · exact ⟨entry, h, rfl⟩

theorem getElem?_removeFd (h : (s.removeFd fd).fdEntries[number]? = some entry) :
    s.fdEntries[number]? = some entry :=
  (Table.of_erase h).2

/-- An action changes no batch. -/
theorem undelivered_act (action : LoopAction) : (s.act action).undelivered = s.undelivered := by
  cases action with
  | addFd fd events callback accepted =>
    simp only [act, addFd]
    split_ifs <;> rfl
  | modifyFd fd events =>
    simp only [act, modifyFd]
    split <;> rfl
  | removeFd _ | addTimer _ _ _ _ | cancelTimer _ => rfl
  | run _ | pollOnce | pollOnceWithoutFunctors => simp [act, undelivered]

theorem Current.act (hs : s.Current) (action : LoopAction) (hkept : s.batchKept (.act action)) :
    (s.act action).Current := by
  intro event hevent entry hentry
  rw [undelivered_act] at hevent
  cases action with
  | addFd fd events callback accepted =>
    rcases getElem?_addFd hentry with hold | ⟨hfd, hfresh⟩
    · exact hs event hevent entry hold
    · rcases hkept with hcontains | hnone
      · rw [hfresh] at hcontains
        cases hcontains
      · exact absurd hfd (hnone event hevent)
  | modifyFd fd events =>
    obtain ⟨old, hold, hsame⟩ := getElem?_modifyFd hentry
    rw [← hsame]
    exact hs event hevent old hold
  | removeFd fd => exact hs event hevent entry (getElem?_removeFd hentry)
  | _ => exact hs event hevent entry hentry

/-! ### Steps and runs -/

theorem Current.kept (hs : s.Current) (hfds : s'.fdEntries = s.fdEntries)
    (hbatches : s'.undelivered ⊆ s.undelivered) : s'.Current := fun event hevent entry hentry =>
  hs event (hbatches hevent) entry (hfds ▸ hentry)

theorem Current.of_effect (h : s.Effect event s') (hs : s.Current) (hkept : s.batchKept event) :
    s'.Current := by
  cases h with
  | control htables hundelivered _ _ _ _ => exact hs.kept htables.fdEntries fun _ => (hundelivered ▸ ·)
  | polled ready htables hundelivered _ _ =>
    intro event hevent entry hentry
    rw [htables.fdEntries] at hentry
    rw [hundelivered] at hevent
    rcases mem_append.1 hevent with hnew | hold
    · obtain ⟨ready, -, rfl⟩ := List.mem_map.1 hnew
      exact congrArg (Option.map _) hentry
    · exact hs event hold entry hentry
  | skipped skipped htables hundelivered _ _ =>
    exact hs.kept htables.fdEntries (hundelivered ▸ subset_cons_self _ _)
  | delivered delivered _ htables hundelivered _ _ _ =>
    exact hs.kept htables.fdEntries (hundelivered ▸ subset_cons_self _ _)
  | scanned _ hfds _ _ _ hundelivered _ _ => exact hs.kept hfds fun _ => (hundelivered ▸ ·)
  | expired _ htables hundelivered _ _ => exact hs.kept htables.fdEntries fun _ => (hundelivered ▸ ·)
  | acted action => exact hs.act action hkept

/-- A callback that is called belongs to the entry of the event, and that is current. -/
theorem ReachedInForce.of_effect (h : s.Effect event s') (hs : s.Current)
    (hreached : s.ReachedInForce) : s'.ReachedInForce := by
  intro registration inForce hcalled
  cases h with
  | control _ _ _ extra hlog hextra =>
    rw [hlog] at hcalled
    rcases mem_append.1 hcalled with hold | hnew
    · exact hreached registration inForce hold
    · exact absurd (hextra _ hnew) (by simp [LoopLog.isCallback])
  | polled _ _ _ _ hlog => exact hreached registration inForce (hlog ▸ hcalled)
  | skipped _ _ _ _ hlog => exact hreached registration inForce (hlog ▸ hcalled)
  | delivered delivered entry _ hundelivered _ hentry hlog =>
    rw [hlog] at hcalled
    rcases mem_append.1 hcalled with hold | hnew
    · exact hreached registration inForce hold
    · cases mem_singleton.1 hnew
      exact hs delivered (hundelivered ▸ mem_cons_self) entry hentry
  | scanned _ _ _ _ _ _ _ hlog => exact hreached registration inForce (hlog ▸ hcalled)
  | expired timer _ _ _ hlog =>
    rcases hlog with hlog | hlog
    · exact hreached registration inForce (hlog ▸ hcalled)
    · rw [hlog] at hcalled
      exact hreached registration inForce (by simpa using hcalled)
  | acted action =>
    refine hreached registration inForce ?_
    cases action with
    | addFd fd events callback accepted =>
      simp only [act, addFd] at hcalled
      split_ifs at hcalled <;> exact hcalled
    | modifyFd fd events =>
      simp only [act, modifyFd] at hcalled
      split at hcalled <;> exact hcalled
    | cancelTimer id => simpa [act, cancelTimer] using hcalled
    | _ => exact hcalled

/-- Whatever the callbacks do, an event reaches only the registration that was in force when the poll
    returned it, as long as no number is registered anew while a batch still has an event for it. -/
theorem events_reach_registration_in_force (backend : Bool) (wakeupFd : Int) (events : List LoopEvent)
    (hkept : Machine.RunsUnder step batchKept (init backend wakeupFd) events) :
    (Machine.run step (init backend wakeupFd) events).ReachedInForce := by
  have hinit : (init backend wakeupFd).Current ∧ (init backend wakeupFd).ReachedInForce :=
    ⟨fun _ h => absurd h (by simp [undelivered, init]), fun _ _ h => absurd h (by simp [init])⟩
  have hrun := Machine.run_invariant (P := fun s => s.Current ∧ s.ReachedInForce)
    (fun s event hs hevent =>
      ⟨.of_effect (effect_step s event) hs.1 hevent, .of_effect (effect_step s event) hs.1 hs.2⟩)
    hkept hinit
  exact hrun.2

/-- Two descriptors are registered and become ready together. -/
def twoReady (first : List LoopEvent) : List LoopEvent :=
  [.act (.addFd 4 1 (some 40) true), .act (.addFd 5 1 (some 50) true), .act .pollOnce,
    .advance 0 none, .advance 0 (some [⟨4, 1⟩, ⟨5, 1⟩]), .advance 0 none] ++ first ++
  [.leave, .advance 0 none]

/-- A callback that only reads leaves the batch alone, and both events are delivered. -/
theorem two_events_delivered :
    (Machine.run step (init true 3) (twoReady [])).log = [.fdCalled 0 (some 0), .fdCalled 1 (some 1)] ∧
      (Machine.run step (init true 3) (twoReady [])).ReachedInForce :=
  ⟨by decide +kernel, events_reach_registration_in_force true 3 (twoReady []) (by decide +kernel)⟩

/-- The first callback closes the second descriptor and registers a new one, which gets its number. The
    event of the old one is delivered to the new one. -/
theorem event_reaches_reused_number : (Machine.run step (init true 3)
      (twoReady [.act (.removeFd 5), .act (.addFd 5 1 (some 60) true)])).log =
        [.fdCalled 0 (some 0), .fdCalled 2 (some 1)] := by
  decide +kernel

end OmniBinder.EventLoop
