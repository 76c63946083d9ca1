/-
Module: OmniBinder.Runtime.LoopThread
Purpose: The event loop of `src/core/event_loop.cpp`: how long a poll may block, and the loop as a
  machine whose thread is a stack of frames, the innermost first.
Trusted boundary: human-reviewed spec
Main exports: EventLoop.calculateTimeout, EventLoop.step
-/
import Mathlib.Data.Int.Basic
import OmniBinder.Lib.Machine
import OmniBinder.Lib.Table

namespace OmniBinder

/-- The largest `int`. -/
def intMax : Int := 0x7fffffff

/-- `static_cast<int>` of a 64-bit value: the low 32 bits, read with their sign. -/
def narrowToInt (value : Int) : Int := value.bmod (2 ^ 32)

/-- `TimerEntry`, as far as a poll reads it. -/
structure TimerEntry where
  expireMs : Int
  cancelled : Bool
deriving DecidableEq, Repr

namespace EventLoop

/-- The loop over the timers: nothing when one is due, otherwise the least time left, or `-1`. -/
def minTimerTimeout (now : Int) : List TimerEntry → Int → Option Int
  | [], least => some least
  | timer :: timers, least =>
    if timer.cancelled then minTimerTimeout now timers least
    else
      let remaining := timer.expireMs - now
      if remaining ≤ 0 then none
      else
        let remainingInt := if remaining > intMax then intMax else narrowToInt remaining
        minTimerTimeout now timers
          (if least < 0 ∨ remainingInt < least then remainingInt else least)

/-- What is handed to the backend, for which a negative value means to wait until something happens. -/
def calculateTimeout (timers : List TimerEntry) (now requested : Int) : Int :=
  if timers.isEmpty then requested
  else
    match minTimerTimeout now timers (-1) with
    | none => 0
    | some least =>
      if requested < 0 then least
      else if least < 0 then requested
      else if requested < least then requested else least

end EventLoop

/-! ### The tables -/

structure ReadyEvent where
  fd : Int
  events : UInt32
deriving DecidableEq, Repr

/-- `FdEntry`, with the number of the registration. A callback is a `std::function`, which may be
    empty. -/
structure FdEntry where
  events : UInt32
  callback : Option Nat
  registration : Nat
deriving DecidableEq, Repr

/-- `TimerEntry` in full, with the number of the timer, which unlike its id is never used again. -/
structure Timer extends TimerEntry where
  id : UInt32
  intervalMs : UInt32
  repeats : Bool
  callback : Option Nat
  serial : Nat
deriving DecidableEq, Repr

namespace Timer

/-- The scan of `processTimers` finds the timer expired. -/
def due (now : Int) (timer : Timer) : Bool := !timer.cancelled && decide (timer.expireMs - now ≤ 0)

/-- What the scan leaves of a timer. -/
def afterScan (now : Int) (timer : Timer) : Option Timer :=
  if timer.cancelled then none
  else if timer.expireMs - now ≤ 0 then
    if timer.repeats && decide (0 < timer.intervalMs) then
      some { timer with expireMs := now + timer.intervalMs.toNat }
    else none
  else some timer

end Timer

/-- A callback in `expired_callbacks`, with the timer it was copied from. -/
structure Expired where
  callback : Option Nat
  id : UInt32
  serial : Nat
deriving DecidableEq, Repr

def Timer.expired (timer : Timer) : Expired := ⟨timer.callback, timer.id, timer.serial⟩

/-- The first loop of `processTimers`, which erases from the list that it walks through: the index, and
    the callbacks copied so far. -/
def Timer.scan (now : Int) (timers : List Timer) (i : Nat) (expired : List Expired) :
    List Timer × List Expired :=
  if h : i < timers.length then
    let timer := timers[i]
    if timer.cancelled then Timer.scan now (timers.eraseIdx i) i expired
    else if timer.expireMs - now ≤ 0 then
      if timer.repeats && decide (0 < timer.intervalMs) then
        Timer.scan now (timers.set i { timer with expireMs := now + timer.intervalMs.toNat }) (i + 1)
          (expired ++ [timer.expired])
      else Timer.scan now (timers.eraseIdx i) i (expired ++ [timer.expired])
    else Timer.scan now timers (i + 1) expired
  else (timers, expired)
termination_by timers.length - i
decreasing_by all_goals grind

/-- The second loop, with the code of the callbacks, which may change the timers and anything else. The
    callbacks that were started are listed. -/
def Timer.callExpired {σ : Type} (code : Nat → List Timer × σ → List Timer × σ) :
    List Expired → List Timer × σ → (List Timer × σ) × List Expired
  | [], state => (state, [])
  | expired :: rest, state =>
    match expired.callback with
    | none => callExpired code rest state
    | some callback =>
      let (state, started) := callExpired code rest (code callback state)
      (state, expired :: started)

/-- `processTimers` as one call. -/
def Timer.processTimers {σ : Type} (code : Nat → List Timer × σ → List Timer × σ) (now : Int)
    (timers : List Timer) (world : σ) : (List Timer × σ) × List Expired :=
  if timers.isEmpty then ((timers, world), [])
  else
    let (timers, expired) := Timer.scan now timers 0 []
    Timer.callExpired code expired (timers, world)

/-- An event of a batch that is not dispatched yet, with the registration of its descriptor at the time
    when the poll returned. -/
structure Undelivered where
  fd : Int
  events : UInt32
  inForce : Option Nat
deriving DecidableEq, Repr

/-- A functor with the call of `post` that it was handed to: the calling thread, the number of the call,
    and whether some `stop` had returned when the call began. -/
structure Posted where
  callback : Option Nat
  thread : Nat
  call : Nat
  afterStop : Bool
deriving DecidableEq, Repr

/-! ### Control -/

/-- What `run` does next. The two conditions of its loop, and those of the tick, are read one after the
    other. -/
inductive RunPc where
  | start
  | arm
  | whileRunning
  | whileStop
  | tickRunning
  | tickStop
  | drain
  | returning
deriving DecidableEq, Repr

/-- What `pollOnceInternal` does next. -/
inductive PollPc where
  | start
  | backendPoll
  | dispatch (batch : List Undelivered)
  | functors
  | returning
deriving DecidableEq, Repr

/-- A function in progress on the thread of the loop. -/
inductive LoopFrame where
  | run (onTick : Option Nat) (pc : RunPc)
  | poll (processFunctors : Bool) (pc : PollPc)
  | timers (expired : List Expired)
  | functors (rest : List Posted)
  | code (callback : Nat)
deriving DecidableEq, Repr

/-- What `post` does next; `returning` with the value that it returns. -/
inductive PostPc where
  | enqueue
  | wakeup
  | returning (result : Bool)
deriving DecidableEq, Repr

/-- What `stop` does next. -/
inductive StopPc where
  | close
  | request
  | clear
  | wakeup
deriving DecidableEq, Repr

/-- A call that a thread is in. -/
inductive ThreadCall where
  | post (posted : Posted) (pc : PostPc)
  | stop (pc : StopPc)
deriving DecidableEq, Repr

/-- What has happened, for the statements. -/
inductive LoopLog where
  /-- A descriptor's callback was called for an event, with the registration the event belongs to. -/
  | fdCalled (registration : Nat) (inForce : Option Nat)
  /-- `cancelTimer` has returned, for these timers. -/
  | timersCancelled (serials : List Nat)
  | timerStarted (serial : Nat)
  | queued (posted : Posted)
  | ran (posted : Posted)
  | postReturned (posted : Posted) (result : Bool)
  | runReturned
deriving DecidableEq, Repr

/-! ### The state -/

/-- The loop, the stack of its thread and the calls of all threads. The counters, `stopReturned` and the
    log are kept for the statements only. -/
structure EventLoop where
  backend : Bool
  wakeupFd : Int
  running : Bool
  stopRequested : Bool
  closed : Bool
  functorWakeupPending : Bool
  fdEntries : Table Int FdEntry
  timers : List Timer
  nextTimerId : UInt32
  pendingFunctors : List Posted
  frames : List LoopFrame
  calls : Table Nat ThreadCall
  registrations : Nat
  timersAdded : Nat
  posts : Nat
  stopReturned : Bool
  log : List LoopLog

/-- The thread that runs the loop. -/
def loopThread : Nat := 0

namespace EventLoop

/-- A new loop, whose backend may have failed to initialize. -/
def init (backend : Bool) (wakeupFd : Int) : EventLoop where
  backend := backend
  wakeupFd := wakeupFd
  running := false
  stopRequested := false
  closed := false
  functorWakeupPending := false
  fdEntries := ∅
  timers := []
  nextTimerId := 1
  pendingFunctors := []
  frames := []
  calls := ∅
  registrations := 0
  timersAdded := 0
  posts := 0
  stopReturned := false
  log := []

/-! ### Descriptors and timers -/

/-- `accepted` is the answer of the backend. -/
def addFd (s : EventLoop) (fd : Int) (events : UInt32) (callback : Option Nat) (accepted : Bool) :
    EventLoop :=
  if fd < 0 then s
  else if s.fdEntries.contains fd then s
  else if s.backend && !accepted then
    { s with
      fdEntries := (s.fdEntries.insert fd ⟨events, callback, s.registrations⟩).erase fd
      registrations := s.registrations + 1 }
  else
    { s with
      fdEntries := s.fdEntries.insert fd ⟨events, callback, s.registrations⟩
      registrations := s.registrations + 1 }

def modifyFd (s : EventLoop) (fd : Int) (events : UInt32) : EventLoop :=
  match s.fdEntries[fd]? with
  | none => s
  | some entry => { s with fdEntries := s.fdEntries.insert fd { entry with events := events } }

def removeFd (s : EventLoop) (fd : Int) : EventLoop := { s with fdEntries := s.fdEntries.erase fd }

/-- The id after `id`; the counter skips zero when it wraps. -/
def timerIdAfter (id : UInt32) : UInt32 := if id + 1 = 0 then 1 else id + 1

def addTimer (s : EventLoop) (delayMs : UInt32) (callback : Option Nat) (repeats : Bool) (now : Int) :
    EventLoop :=
  { s with
    nextTimerId := timerIdAfter s.nextTimerId
    timersAdded := s.timersAdded + 1
    timers := s.timers ++
      [{ expireMs := now + delayMs.toNat
         cancelled := false
         id := s.nextTimerId
         intervalMs := if repeats then delayMs else 0
         repeats := repeats
         callback := callback
         serial := s.timersAdded }] }

/-- The first timer with the id is marked, and the next scan drops it. -/
def markCancelled (id : UInt32) : List Timer → List Timer
  | [] => []
  | timer :: timers =>
    if timer.id = id then { timer with cancelled := true } :: timers
    else timer :: markCancelled id timers

end EventLoop

/-- The callbacks that a frame has copied from expired timers and not called yet. -/
def LoopFrame.expired : LoopFrame → List Expired
  | .timers expired => expired
  | _ => []

namespace EventLoop

/-- The expired callbacks that are still to be called, over all polls in progress. -/
def waiting (s : EventLoop) : List Expired := s.frames.flatMap LoopFrame.expired

/-- The timers with the id whose callback is still to come: they are in the list and not cancelled, or
    have expired and wait for their turn. -/
def liveSerials (s : EventLoop) (id : UInt32) : List Nat :=
  (s.timers.filter fun timer => timer.id = id && !timer.cancelled).map (·.serial) ++
    (s.waiting.filter (·.id = id)).map (·.serial)

def cancelTimer (s : EventLoop) (id : UInt32) : EventLoop :=
  { s with
    timers := markCancelled id s.timers
    log := s.log ++ [.timersCancelled (s.liveSerials id)] }

/-! ### The thread of the loop -/

/-- The queue is taken as a whole, and what is posted from then on waits for the next time. -/
def processPendingFunctors (s : EventLoop) (callers : List LoopFrame) : EventLoop :=
  { s with pendingFunctors := [], frames := .functors s.pendingFunctors :: callers }

/-- The scan of `processTimers`, which then goes on to call what it has copied. -/
def processTimers (s : EventLoop) (now : Int) (callers : List LoopFrame) : EventLoop :=
  { s with
    timers := s.timers.filterMap (Timer.afterScan now)
    frames := .timers ((s.timers.filter (Timer.due now)).map Timer.expired) :: callers }

def advanceRun (s : EventLoop) (onTick : Option Nat) (callers : List LoopFrame) : RunPc → EventLoop
  | .start =>
    if !s.backend then { s with frames := callers, log := s.log ++ [.runReturned] }
    else if s.stopRequested then s.processPendingFunctors (.run onTick .returning :: callers)
    else { s with frames := .run onTick .arm :: callers }
  | .arm => { s with running := true, frames := .run onTick .whileRunning :: callers }
  | .whileRunning =>
    { s with frames := .run onTick (if s.running then .whileStop else .drain) :: callers }
  | .whileStop =>
    if s.stopRequested then { s with frames := .run onTick .drain :: callers }
    else { s with frames := .poll true .start :: .run onTick .tickRunning :: callers }
  | .tickRunning =>
    if onTick.isSome && s.running then { s with frames := .run onTick .tickStop :: callers }
    else { s with frames := .run onTick .whileRunning :: callers }
  | .tickStop =>
    match onTick, s.stopRequested with
    | some tick, false => { s with frames := .code tick :: .run onTick .whileRunning :: callers }
    | _, _ => { s with frames := .run onTick .whileRunning :: callers }
  | .drain => s.processPendingFunctors (.run onTick .returning :: callers)
  | .returning => { s with frames := callers, log := s.log ++ [.runReturned] }

/-- One event of a batch. The entry is looked up now, by the number of the descriptor. -/
def dispatch (s : EventLoop) (event : Undelivered) (callers : List LoopFrame) : EventLoop :=
  if event.fd = s.wakeupFd then { s with frames := callers }
  else
    match s.fdEntries[event.fd]? with
    | none => { s with frames := callers }
    | some entry =>
      match entry.callback with
      | none => { s with frames := callers }
      | some callback =>
        { s with
          frames := .code callback :: callers
          log := s.log ++ [.fdCalled entry.registration event.inForce] }

/-- The batch, each event with the registration that is in force when the poll returns. -/
def batchOf (s : EventLoop) (ready : List ReadyEvent) : List Undelivered :=
  ready.map fun event => ⟨event.fd, event.events, s.fdEntries[event.fd]?.map (·.registration)⟩

/-- `ready` is what the backend returns, or nothing when it fails. -/
def advancePoll (s : EventLoop) (processFunctors : Bool) (callers : List LoopFrame) (now : Int)
    (ready : Option (List ReadyEvent)) : PollPc → EventLoop
  | .start =>
    if !s.backend then { s with frames := callers }
    else if processFunctors && s.functorWakeupPending then
      { s with functorWakeupPending := false }.processPendingFunctors
        (.poll processFunctors .backendPoll :: callers)
    else { s with frames := .poll processFunctors .backendPoll :: callers }
  | .backendPoll =>
    match ready with
    | none => { s with frames := callers }
    | some ready =>
      { s with frames := .poll processFunctors (.dispatch (s.batchOf ready)) :: callers }
  | .dispatch (event :: batch) => s.dispatch event (.poll processFunctors (.dispatch batch) :: callers)
  | .dispatch [] => s.processTimers now (.poll processFunctors .functors :: callers)
  | .functors =>
    if processFunctors then s.processPendingFunctors (.poll processFunctors .returning :: callers)
    else
      { s with
        functorWakeupPending := s.functorWakeupPending || !s.pendingFunctors.isEmpty
        frames := callers }
  | .returning => { s with frames := callers }

/-- The thread goes on in its innermost frame. In the code of a callback, or outside of the loop, it does
    so by an action instead. -/
def advance (s : EventLoop) (now : Int) (ready : Option (List ReadyEvent)) : EventLoop :=
  match s.frames with
  | [] => s
  | .code _ :: _ => s
  | .run onTick pc :: callers => s.advanceRun onTick callers pc
  | .poll processFunctors pc :: callers => s.advancePoll processFunctors callers now ready pc
  | .timers [] :: callers => { s with frames := callers }
  | .timers (timer :: expired) :: callers =>
    match timer.callback with
    | none => { s with frames := .timers expired :: callers }
    | some callback =>
      { s with
        frames := .code callback :: .timers expired :: callers
        log := s.log ++ [.timerStarted timer.serial] }
  | .functors [] :: callers => { s with frames := callers }
  | .functors (posted :: rest) :: callers =>
    { s with
      frames := (posted.callback.map LoopFrame.code).toList ++ .functors rest :: callers
      log := s.log ++ [.ran posted] }

/-- The code of a callback, or code outside of the loop, is in control. -/
def inCode (s : EventLoop) : Bool :=
  !s.calls.contains loopThread &&
    match s.frames with
    | [] => true
    | .code _ :: _ => true
    | _ => false

end EventLoop

/-- What code on the thread of the loop may do there, besides `post` and `stop`. -/
inductive LoopAction where
  | addFd (fd : Int) (events : UInt32) (callback : Option Nat) (accepted : Bool)
  | modifyFd (fd : Int) (events : UInt32)
  | removeFd (fd : Int)
  | addTimer (delayMs : UInt32) (callback : Option Nat) (repeats : Bool) (now : Int)
  | cancelTimer (id : UInt32)
  | run (onTick : Option Nat)
  | pollOnce
  | pollOnceWithoutFunctors
deriving DecidableEq, Repr

/-- What a thread may call at any time. -/
inductive ThreadRequest where
  | post (functor : Option Nat)
  | stop
deriving DecidableEq, Repr

inductive LoopEvent where
  /-- The thread of the loop goes on, with the clock and the answer of the backend if it asks. -/
  | advance (now : Int) (ready : Option (List ReadyEvent))
  | act (action : LoopAction)
  /-- The callback in control returns. -/
  | leave
  | call (thread : Nat) (request : ThreadRequest)
  /-- A thread goes on in its call. -/
  | proceed (thread : Nat)
deriving DecidableEq, Repr

namespace EventLoop

def act (s : EventLoop) : LoopAction → EventLoop
  | .addFd fd events callback accepted => s.addFd fd events callback accepted
  | .modifyFd fd events => s.modifyFd fd events
  | .removeFd fd => s.removeFd fd
  | .addTimer delayMs callback repeats now => s.addTimer delayMs callback repeats now
  | .cancelTimer id => s.cancelTimer id
  | .run onTick => { s with frames := .run onTick .start :: s.frames }
  | .pollOnce => { s with frames := .poll true .start :: s.frames }
  | .pollOnceWithoutFunctors => { s with frames := .poll false .start :: s.frames }

def leave (s : EventLoop) : EventLoop :=
  match s.frames with
  | .code _ :: callers => { s with frames := callers }
  | _ => s

/-! ### Calls from any thread -/

def callWith (s : EventLoop) (thread : Nat) : ThreadRequest → EventLoop
  | .post functor =>
    { s with
      calls := s.calls.insert thread (.post ⟨functor, thread, s.posts, s.stopReturned⟩ .enqueue)
      posts := s.posts + 1 }
  | .stop => { s with calls := s.calls.insert thread (.stop .close) }

/-- The section under the mutex is one step, and so is each access to an atomic. -/
def proceedPost (s : EventLoop) (thread : Nat) (posted : Posted) : PostPc → EventLoop
  | .enqueue =>
    if !s.backend || s.closed then
      { s with calls := s.calls.insert thread (.post posted (.returning false)) }
    else
      { s with
        pendingFunctors := s.pendingFunctors ++ [posted]
        log := s.log ++ [.queued posted]
        calls := s.calls.insert thread (.post posted .wakeup) }
  | .wakeup => { s with calls := s.calls.insert thread (.post posted (.returning true)) }
  | .returning result =>
    { s with calls := s.calls.erase thread, log := s.log ++ [.postReturned posted result] }

def proceedStop (s : EventLoop) (thread : Nat) : StopPc → EventLoop
  | .close => { s with closed := true, calls := s.calls.insert thread (.stop .request) }
  | .request => { s with stopRequested := true, calls := s.calls.insert thread (.stop .clear) }
  | .clear => { s with running := false, calls := s.calls.insert thread (.stop .wakeup) }
  | .wakeup => { s with calls := s.calls.erase thread, stopReturned := true }

def proceed (s : EventLoop) (thread : Nat) : EventLoop :=
  match s.calls[thread]? with
  | none => s
  | some (.post posted pc) => s.proceedPost thread posted pc
  | some (.stop pc) => s.proceedStop thread pc

/-- A thread is in one call at a time, and that of the loop calls from its callbacks. -/
def mayCall (s : EventLoop) (thread : Nat) : Bool :=
  !s.calls.contains thread && (thread != loopThread || s.inCode)

def step (s : EventLoop) : LoopEvent → EventLoop
  | .advance now ready => if s.calls.contains loopThread then s else s.advance now ready
  | .act action => if s.inCode then s.act action else s
  | .leave => if s.inCode then s.leave else s
  | .call thread request => if s.mayCall thread then s.callWith thread request else s
  | .proceed thread => s.proceed thread

end EventLoop

end OmniBinder
