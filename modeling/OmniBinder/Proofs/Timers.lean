/-
Module: OmniBinder.Proofs.Timers
Purpose: What `cancelTimer` promises, how long a poll may block with timers in force, and what becomes of
  the timers in their turn. The scan of the timers copies the callbacks of those that have expired, and
  the copies are called whatever becomes of the timers.
Trusted boundary: none
Main exports: EventLoop.SilentOnceCancelled, timers_served
-/
import Mathlib.Data.List.Nodup
import OmniBinder.Proofs.LoopEffects

namespace OmniBinder

open List EventLoop LoopLog

variable {now : Int} {timer : Timer} {id : UInt32} {timers : List Timer} {extra : List LoopLog}

/-- The timers that an entry reports as cancelled. -/
def LoopLog.cancels : LoopLog → List Nat
  | .timersCancelled serials => serials
  | _ => []

theorem LoopLog.cancels_of_isCallback {entry : LoopLog} (h : entry.isCallback = false) :
    entry.cancels = [] := by
  cases entry with
  | timersCancelled serials => cases h
  | _ => rfl

/-! ### Scanning and marking -/

namespace Timer

theorem afterScan_eq {kept : Timer} (h : timer.afterScan now = some kept) :
    kept.serial = timer.serial ∧ kept.id = timer.id ∧ timer.cancelled = false ∧
      kept.cancelled = false := by
  unfold afterScan at h
  split_ifs at h with hcancelled hdue hrepeats
  · cases h
    exact ⟨rfl, rfl, by simpa using hcancelled, by simpa using hcancelled⟩
  · cases h
    exact ⟨rfl, rfl, by simpa using hcancelled, by simpa using hcancelled⟩

/-- The timers that stay are some of those before, in the same order. -/
theorem serials_afterScan (now : Int) (timers : List Timer) :
    ((timers.filterMap (afterScan now)).map (·.serial)).Sublist (timers.map (·.serial)) := by
  induction timers with
  | nil => exact List.Sublist.slnil
  | cons timer timers ih =>
    cases hkept : timer.afterScan now with
    | none =>
      rw [filterMap_cons_none hkept, map_cons]
      exact ih.cons _
    | some kept =>
      rw [filterMap_cons_some hkept, map_cons, map_cons, (afterScan_eq hkept).1]
      exact ih.cons_cons _

end Timer

namespace EventLoop

variable {s s' : EventLoop} {event : LoopEvent}

theorem serials_markCancelled (id : UInt32) (timers : List Timer) :
    (markCancelled id timers).map (·.serial) = timers.map (·.serial) := by
  induction timers with
  | nil => rfl
  | cons timer timers ih =>
    unfold markCancelled
    split_ifs
    · rfl
    · rw [map_cons, map_cons, ih]

/-- Marking changes nothing but the mark. -/
theorem mem_markCancelled
    (h : timer ∈ markCancelled id timers) :
    ∃ old ∈ timers, timer.serial = old.serial ∧ timer.id = old.id ∧
      (old.cancelled = true → timer.cancelled = true) := by
  induction timers with
  | nil => cases h
  | cons first timers ih =>
    unfold markCancelled at h
    split_ifs at h with hid
    · rcases mem_cons.1 h with rfl | hrest
      · exact ⟨first, mem_cons_self, rfl, rfl, fun _ => rfl⟩
      · exact ⟨timer, mem_cons_of_mem _ hrest, rfl, rfl, fun h => h⟩
    · rcases mem_cons.1 h with rfl | hrest
      · exact ⟨timer, mem_cons_self, rfl, rfl, fun h => h⟩
      · obtain ⟨old, hold, hsame⟩ := ih hrest
        exact ⟨old, mem_cons_of_mem _ hold, hsame⟩

/-- If no two timers have the id, then the one that has it is marked. -/
theorem cancelled_of_mem_markCancelled
    (hone : (timers.filter (·.id = id)).length ≤ 1) (h : timer ∈ markCancelled id timers)
    (hid : timer.id = id) : timer.cancelled = true := by
  induction timers with
  | nil => cases h
  | cons first timers ih =>
    unfold markCancelled at h
    split_ifs at h with hfirst
    · rcases mem_cons.1 h with rfl | hrest
      · rfl
      · have hmem : timer ∈ timers.filter (·.id = id) := List.mem_filter.2 ⟨hrest, by simpa using hid⟩
        have := length_pos_of_mem hmem
        rw [filter_cons_of_pos (by simpa using hfirst), length_cons] at hone
        omega
    · rcases mem_cons.1 h with rfl | hrest
      · exact absurd hid hfirst
      · rw [filter_cons_of_neg (by simpa using hfirst)] at hone
        exact ih hone hrest

/-! ### The invariant -/

/-- The timers that were cancelled. -/
def cancelledSerials (s : EventLoop) : List Nat := s.log.flatMap LoopLog.cancels

/-- No callback of a timer is started after the timer was cancelled. -/
def SilentOnceCancelled (s : EventLoop) : Prop :=
  s.log.Pairwise fun earlier later => ∀ serial ∈ earlier.cancels, later ≠ .timerStarted serial

/-- When a timer is cancelled, no poll in progress still has a callback of the timer to call, and no two
    timers of the list have the id. -/
def cancelsIdle (s : EventLoop) : LoopEvent → Prop
  | .act (.cancelTimer id) =>
    (∀ expired ∈ s.waiting, expired.id ≠ id) ∧ (s.timers.filter (·.id = id)).length ≤ 1
  | _ => True

instance (s : EventLoop) (event : LoopEvent) : Decidable (s.cancelsIdle event) := by
  unfold cancelsIdle
  split <;> infer_instance

/-- A cancelled timer is marked as long as it is in the list, and no copy of its callback waits. -/
structure Cancelled (s : EventLoop) : Prop where
  distinct : (s.timers.map (·.serial)).Nodup
  added : ∀ timer ∈ s.timers, timer.serial < s.timersAdded
  waitingAdded : ∀ expired ∈ s.waiting, expired.serial < s.timersAdded
  cancelledAdded : ∀ serial ∈ s.cancelledSerials, serial < s.timersAdded
  sameId : ∀ expired ∈ s.waiting, ∀ timer ∈ s.timers, expired.serial = timer.serial →
    expired.id = timer.id
  marked : ∀ timer ∈ s.timers, timer.serial ∈ s.cancelledSerials → timer.cancelled = true
  silent : ∀ expired ∈ s.waiting, expired.serial ∉ s.cancelledSerials

theorem Cancelled.init (backend : Bool) (wakeupFd : Int) : (init backend wakeupFd).Cancelled where
  distinct := nodup_nil
  added := by simp [EventLoop.init]
  waitingAdded := by simp [EventLoop.init, waiting]
  cancelledAdded := by simp [EventLoop.init, cancelledSerials]
  sameId := by simp [EventLoop.init]
  marked := by simp [EventLoop.init]
  silent := by simp [EventLoop.init, waiting]

/-- A timer of the list is known by its number. -/
theorem Cancelled.eq_of_serial (hs : s.Cancelled) {first second : Timer} (hfirst : first ∈ s.timers)
    (hsecond : second ∈ s.timers) (h : first.serial = second.serial) : first = second :=
  inj_on_of_nodup_map hs.distinct hfirst hsecond h

/-- Timers may disappear or be marked, and callbacks of timers that are not marked be copied. -/
theorem Cancelled.carried (hs : s.Cancelled) (hdistinct : (s'.timers.map (·.serial)).Nodup)
    (hadded : s'.timersAdded = s.timersAdded) (hcancelled : s'.cancelledSerials = s.cancelledSerials)
    (htimers : ∀ kept ∈ s'.timers, ∃ timer ∈ s.timers, kept.serial = timer.serial ∧ kept.id = timer.id ∧
      (timer.cancelled = true → kept.cancelled = true))
    (hwaiting : ∀ expired ∈ s'.waiting, expired ∈ s.waiting ∨ ∃ timer ∈ s.timers,
      timer.cancelled = false ∧ expired = timer.expired) : s'.Cancelled where
  distinct := hdistinct
  added kept h := by
    obtain ⟨timer, htimer, hserial, -⟩ := htimers kept h
    rw [hserial, hadded]
    exact hs.added timer htimer
  waitingAdded expired h := by
    rw [hadded]
    rcases hwaiting expired h with hold | ⟨timer, htimer, -, rfl⟩
    · exact hs.waitingAdded expired hold
    · exact hs.added timer htimer
  cancelledAdded := by
    rw [hcancelled, hadded]
    exact hs.cancelledAdded
  sameId expired h kept hmem hsame := by
    obtain ⟨timer, htimer, hserial, hid, -⟩ := htimers kept hmem
    rw [hserial] at hsame
    rw [hid]
    rcases hwaiting expired h with hold | ⟨copied, hcopied, -, rfl⟩
    · exact hs.sameId expired hold timer htimer hsame
    · rw [hs.eq_of_serial hcopied htimer hsame]
      rfl
  marked kept h hmem := by
    obtain ⟨timer, htimer, hserial, -, hmarked⟩ := htimers kept h
    rw [hcancelled, hserial] at hmem
    exact hmarked (hs.marked timer htimer hmem)
  silent expired h := by
    rw [hcancelled]
    rcases hwaiting expired h with hold | ⟨timer, htimer, hlive, rfl⟩
    · exact hs.silent expired hold
    · intro hmem
      rw [hs.marked timer htimer hmem] at hlive
      cases hlive

/-- Nothing is lost that counts when copies disappear from the frames. -/
theorem Cancelled.of_waiting (hs : s.Cancelled) (htables : s.SameTables s')
    (hcancelled : s'.cancelledSerials = s.cancelledSerials)
    (hwaiting : ∀ expired ∈ s'.waiting, expired ∈ s.waiting) : s'.Cancelled := by
  refine hs.carried (htables.timers ▸ hs.distinct) htables.timersAdded hcancelled (fun kept h => ?_)
    fun expired h => .inl (hwaiting expired h)
  exact ⟨kept, htables.timers ▸ h, rfl, rfl, fun h => h⟩

theorem cancelledSerials_append (hlog : s'.log = s.log ++ extra) :
    s'.cancelledSerials = s.cancelledSerials ++ extra.flatMap cancels := by
  rw [cancelledSerials, hlog, flatMap_append, cancelledSerials]

/-- The scan copies callbacks of timers that are not marked. -/
theorem Cancelled.scanned (hs : s.Cancelled) (hadded : s'.timersAdded = s.timersAdded)
    (htimers : s'.timers = s.timers.filterMap (Timer.afterScan now))
    (hwaiting : s'.waiting = (s.timers.filter (Timer.due now)).map Timer.expired ++ s.waiting)
    (hlog : s'.log = s.log) : s'.Cancelled := by
  have hcancelled : s'.cancelledSerials = s.cancelledSerials := by
    rw [cancelledSerials, hlog, cancelledSerials]
  refine hs.carried ?_ hadded hcancelled (fun kept h => ?_) fun expired h => ?_
  · rw [htimers]
    exact hs.distinct.sublist (Timer.serials_afterScan now s.timers)
  · rw [htimers] at h
    obtain ⟨timer, htimer, hscan⟩ := List.mem_filterMap.1 h
    obtain ⟨hserial, hid, hlive, -⟩ := Timer.afterScan_eq hscan
    exact ⟨timer, htimer, hserial, hid, by simp [hlive]⟩
  · rw [hwaiting] at h
    rcases mem_append.1 h with hnew | hold
    · obtain ⟨timer, htimer, rfl⟩ := List.mem_map.1 hnew
      obtain ⟨hmem, hdue⟩ := List.mem_filter.1 htimer
      simp only [Timer.due, Bool.and_eq_true, Bool.not_eq_true'] at hdue
      exact .inr ⟨timer, hmem, hdue.1, rfl⟩
    · exact .inl hold

theorem Cancelled.addTimer (hs : s.Cancelled) (delayMs : UInt32) (callback : Option Nat)
    (repeats : Bool) (now : Int) : (s.addTimer delayMs callback repeats now).Cancelled := by
  refine ⟨?_, ?_, ?_, ?_, ?_, ?_, hs.silent⟩
  · rw [EventLoop.addTimer, map_append]
    refine List.Nodup.append hs.distinct (nodup_singleton _) ?_
    intro serial hold hnew
    obtain ⟨timer, htimer, rfl⟩ := List.mem_map.1 hold
    have := hs.added timer htimer
    simp only [map_cons, map_nil, mem_singleton] at hnew
    omega
  · exact forall_mem_append.2 ⟨fun timer h => (hs.added timer h).trans (Nat.lt_succ_self _),
      forall_mem_singleton.2 (Nat.lt_succ_self _)⟩
  · intro expired h
    exact (hs.waitingAdded expired h).trans (Nat.lt_succ_self _)
  · intro serial h
    exact (hs.cancelledAdded serial h).trans (Nat.lt_succ_self _)
  · exact fun expired h => forall_mem_append.2 ⟨hs.sameId expired h, forall_mem_singleton.2 fun hsame =>
      absurd hsame (Nat.ne_of_lt (hs.waitingAdded expired h))⟩
  · exact forall_mem_append.2 ⟨hs.marked, forall_mem_singleton.2 fun hserial =>
      absurd rfl (Nat.ne_of_lt (hs.cancelledAdded _ hserial))⟩

theorem Cancelled.cancelTimer (hs : s.Cancelled)
    (hidle : ∀ expired ∈ s.waiting, expired.id ≠ id)
    (hone : (s.timers.filter (·.id = id)).length ≤ 1) : (s.cancelTimer id).Cancelled := by
  have hserials : (s.cancelTimer id).cancelledSerials = s.cancelledSerials ++ s.liveSerials id := by
    have hlog : (s.cancelTimer id).log = s.log ++ [.timersCancelled (s.liveSerials id)] := rfl
    rw [cancelledSerials_append hlog]
    simp [cancels]
  have hlive : ∀ serial ∈ s.liveSerials id, ∃ timer ∈ s.timers, timer.id = id ∧
      timer.serial = serial := by
    intro serial h
    rcases mem_append.1 h with h | h
    · obtain ⟨timer, htimer, rfl⟩ := List.mem_map.1 h
      obtain ⟨hmem, hid⟩ := List.mem_filter.1 htimer
      simp only [Bool.and_eq_true, decide_eq_true_eq] at hid
      exact ⟨timer, hmem, hid.1, rfl⟩
    · obtain ⟨expired, hexpired, rfl⟩ := List.mem_map.1 h
      obtain ⟨hmem, hid⟩ := List.mem_filter.1 hexpired
      exact absurd (by simpa using hid) (hidle expired hmem)
  -- first the marks, then what is reported
  have hmarked : Cancelled { s with timers := markCancelled id s.timers } :=
    hs.carried (serials_markCancelled id s.timers ▸ hs.distinct) rfl rfl (fun _ => mem_markCancelled)
      fun _ => .inl
  refine { hmarked with cancelledAdded := ?_, marked := ?_, silent := ?_ } <;> rw [hserials]
  · refine forall_mem_append.2 ⟨hs.cancelledAdded, fun serial hnew => ?_⟩
    obtain ⟨timer, htimer, -, rfl⟩ := hlive serial hnew
    exact hs.added timer htimer
  · intro timer hmem hcancelled
    rcases mem_append.1 hcancelled with hbefore | hnew
    · exact hmarked.marked timer hmem hbefore
    · obtain ⟨live, hmemlive, hliveid, hsame⟩ := hlive _ hnew
      obtain ⟨old, hold, hserial, hid, -⟩ := mem_markCancelled hmem
      have heq := hs.eq_of_serial hmemlive hold (hsame.trans hserial)
      exact cancelled_of_mem_markCancelled hone hmem (by rw [hid, ← heq, hliveid])
  · intro expired h hcancelled
    rcases mem_append.1 hcancelled with hbefore | hnew
    · exact hs.silent expired h hbefore
    · -- A timer that is still in the list has the id of its copies.
      obtain ⟨timer, htimer, hid, hsame⟩ := hlive _ hnew
      exact hidle expired h ((hs.sameId expired h timer htimer hsame.symm).trans hid)

theorem Cancelled.act (hs : s.Cancelled) (action : LoopAction) (hidle : s.cancelsIdle (.act action)) :
    (s.act action).Cancelled := by
  have hsame : ∀ s' : EventLoop, s.SameTables s' → s'.log = s.log → s'.waiting = s.waiting →
      s'.Cancelled := by
    intro s' htables hlog hwaiting
    refine hs.of_waiting htables ?_ (hwaiting ▸ fun _ h => h)
    rw [cancelledSerials, hlog, cancelledSerials]
  cases action with
  | addFd fd events callback accepted =>
    simp only [EventLoop.act, EventLoop.addFd]
    split_ifs <;> exact { hs with }
  | modifyFd fd events =>
    simp only [EventLoop.act, EventLoop.modifyFd]
    split <;> exact { hs with }
  | removeFd fd => exact { hs with }
  | addTimer delayMs callback repeats now => exact hs.addTimer delayMs callback repeats now
  | cancelTimer id => exact hs.cancelTimer hidle.1 hidle.2
  | run _ | pollOnce | pollOnceWithoutFunctors =>
    exact hsame _ ⟨rfl, rfl, rfl, rfl⟩ rfl (by simp [EventLoop.act, waiting])

/-! ### Steps and runs -/

theorem Cancelled.of_effect (h : s.Effect event s') (hs : s.Cancelled) (hidle : s.cancelsIdle event) :
    s'.Cancelled := by
  cases h with
  | control htables _ hwaiting extra hlog hextra =>
    refine hs.of_waiting htables ?_ (hwaiting ▸ fun _ h => h)
    have hnone : extra.flatMap cancels = [] := by
      rw [flatMap_eq_nil_iff]
      exact fun entry hentry => cancels_of_isCallback (hextra entry hentry)
    rw [cancelledSerials_append hlog, hnone, append_nil]
  | polled _ htables _ hwaiting hlog =>
    refine hs.of_waiting htables ?_ (hwaiting ▸ fun _ h => h)
    rw [cancelledSerials, hlog, cancelledSerials]
  | skipped _ htables _ hwaiting hlog =>
    refine hs.of_waiting htables ?_ (hwaiting ▸ fun _ h => h)
    rw [cancelledSerials, hlog, cancelledSerials]
  | delivered _ _ htables _ hwaiting _ hlog =>
    refine hs.of_waiting htables ?_ (hwaiting ▸ fun _ h => h)
    simp [cancelledSerials_append hlog, cancels]
  | scanned now _ _ hadded htimers _ hwaiting hlog => exact hs.scanned hadded htimers hwaiting hlog
  | expired timer htables _ hwaiting hlog =>
    refine hs.of_waiting htables ?_ (hwaiting ▸ fun _ h => mem_cons_of_mem _ h)
    rcases hlog with hlog | hlog
    · rw [cancelledSerials, hlog, cancelledSerials]
    · simp [cancelledSerials_append hlog, cancels]
  | acted action => exact hs.act action hidle

/-- Entries that start no timer keep the order. -/
theorem SilentOnceCancelled.append (hsilent : s.SilentOnceCancelled)
    (hlog : s'.log = s.log ++ extra) (hextra : extra.Pairwise fun earlier later =>
      ∀ serial ∈ earlier.cancels, later ≠ .timerStarted serial)
    (hnew : ∀ serial ∈ s.cancelledSerials, .timerStarted serial ∉ extra) :
    s'.SilentOnceCancelled := by
  rw [SilentOnceCancelled, hlog, pairwise_append]
  refine ⟨hsilent, hextra, fun earlier hearlier later hlater serial hserial heq => ?_⟩
  exact hnew serial (mem_flatMap.2 ⟨earlier, hearlier, hserial⟩) (heq ▸ hlater)

theorem SilentOnceCancelled.of_effect (h : s.Effect event s') (hs : s.Cancelled)
    (hsilent : s.SilentOnceCancelled) : s'.SilentOnceCancelled := by
  have hsame : s'.log = s.log → s'.SilentOnceCancelled := by
    intro hlog
    rw [SilentOnceCancelled, hlog]
    exact hsilent
  cases h with
  | control _ _ _ extra hlog hextra =>
    refine hsilent.append hlog ?_ ?_
    · refine pairwise_of_forall_mem_list fun earlier hearlier later _ serial hserial => ?_
      rw [cancels_of_isCallback (hextra earlier hearlier)] at hserial
      cases hserial
    · intro serial _ hmem
      exact absurd (hextra _ hmem) (by simp [isCallback])
  | polled _ _ _ _ hlog => exact hsame hlog
  | skipped _ _ _ _ hlog => exact hsame hlog
  | delivered _ _ _ _ _ _ hlog => exact hsilent.append hlog (pairwise_singleton _ _) (by simp)
  | scanned _ _ _ _ _ _ _ hlog => exact hsame hlog
  | expired timer _ _ hwaiting hlog =>
    rcases hlog with hlog | hlog
    · exact hsame hlog
    · refine hsilent.append hlog (pairwise_singleton _ _) fun serial hserial hmem => ?_
      cases mem_singleton.1 hmem
      exact hs.silent timer (hwaiting ▸ mem_cons_self) hserial
  | acted action =>
    cases action with
    | addFd fd events callback accepted =>
      simp only [EventLoop.act, EventLoop.addFd]
      split_ifs <;> exact hsilent
    | modifyFd fd events =>
      simp only [EventLoop.act, EventLoop.modifyFd]
      split <;> exact hsilent
    | cancelTimer id =>
      have hlog : (s.cancelTimer id).log = s.log ++ [.timersCancelled (s.liveSerials id)] := rfl
      exact hsilent.append hlog (pairwise_singleton _ _) (by simp)
    | _ => exact hsilent

/-- Whatever the clock and the callbacks do, a timer is not started once it is cancelled, as long as no
    batch in progress holds a copy of its callback at that time and no other timer has its id. -/
theorem cancelled_timer_not_started (backend : Bool) (wakeupFd : Int) (events : List LoopEvent)
    (hidle : Machine.RunsUnder step cancelsIdle (EventLoop.init backend wakeupFd) events) :
    (Machine.run step (EventLoop.init backend wakeupFd) events).SilentOnceCancelled := by
  have hrun := Machine.run_invariant (P := fun s => s.Cancelled ∧ s.SilentOnceCancelled)
    (fun s event hs hevent =>
      ⟨.of_effect (effect_step s event) hs.1 hevent, .of_effect (effect_step s event) hs.1 hs.2⟩)
    hidle ⟨.init backend wakeupFd, List.Pairwise.nil⟩
  exact hrun.2

/-- Two timers repeat with the same delay. The callback of the first one cancels a timer, and then the
    batch goes on. -/
def twoTimers (id : UInt32) : List LoopEvent :=
  [.act (.addTimer 10 (some 40) true 0), .act (.addTimer 10 (some 50) true 0), .act .pollOnce,
    .advance 10 none, .advance 10 (some []), .advance 10 none, .advance 10 none,
    .act (.cancelTimer id), .leave, .advance 10 none]

/-- A timer may cancel itself. -/
theorem timer_cancels_itself : (Machine.run step (EventLoop.init true 3) (twoTimers 1)).log =
        [.timerStarted 0, .timersCancelled [0], .timerStarted 1] ∧
      (Machine.run step (EventLoop.init true 3) (twoTimers 1)).SilentOnceCancelled :=
  ⟨by decide +kernel, cancelled_timer_not_started true 3 (twoTimers 1) (by decide +kernel)⟩

/-- The second timer is in the list and not cancelled when it is cancelled, and is started after that. -/
theorem cancelled_timer_started : (Machine.run step (EventLoop.init true 3) (twoTimers 2)).log =
      [.timerStarted 0, .timersCancelled [1, 1], .timerStarted 1] := by
  decide +kernel

end EventLoop

variable {now : Int}

/-! ### The timeout of a poll -/

namespace EventLoop

variable {entries : List TimerEntry} {least time : Int}

/-- The loop stops at a timer that is due. -/
theorem minTimerTimeout_eq_none : minTimerTimeout now entries least = none ↔
    ∃ timer ∈ entries, timer.cancelled = false ∧ timer.expireMs ≤ now := by
  induction entries generalizing least with
  | nil => simp [minTimerTimeout]
  | cons timer entries ih =>
    rw [minTimerTimeout, exists_mem_cons_iff]
    by_cases hcancelled : timer.cancelled = true
    · rw [if_pos hcancelled, ih, or_iff_right fun hdue => by simp [hcancelled] at hdue]
    · rw [if_neg hcancelled]
      by_cases hdue : timer.expireMs - now ≤ 0
      · rw [if_pos hdue]
        exact iff_of_true rfl (.inl ⟨by simpa using hcancelled, by omega⟩)
      · rw [if_neg hdue, ih, or_iff_right fun hnow => by omega]

/-- The time at which the loop ends is not more than what is left to any timer in force, and it is not
    negative if there is one. -/
theorem minTimerTimeout_le (h : minTimerTimeout now entries least = some time) :
    (0 ≤ least → 0 ≤ time ∧ time ≤ least) ∧ ∀ timer ∈ entries, timer.cancelled = false →
      0 ≤ time ∧ time ≤ min (timer.expireMs - now) intMax := by
  induction entries generalizing least with
  | nil =>
    cases h
    exact ⟨fun h => ⟨h, le_rfl⟩, nofun⟩
  | cons timer entries ih =>
    rw [minTimerTimeout] at h
    by_cases hcancelled : timer.cancelled = true
    · rw [if_pos hcancelled] at h
      obtain ⟨hleast, hentries⟩ := ih h
      exact ⟨hleast, forall_mem_cons.mpr ⟨fun hlive => by simp [hcancelled] at hlive, hentries⟩⟩
    · rw [if_neg hcancelled] at h
      by_cases hdue : timer.expireMs - now ≤ 0
      · simp [hdue] at h
      · have hleft : (if timer.expireMs - now > intMax then intMax else
            narrowToInt (timer.expireMs - now)) = min (timer.expireMs - now) intMax := by
          split_ifs with hlong
          · exact (min_eq_right hlong.le).symm
          · rw [min_eq_left (by omega), narrowToInt]
            unfold intMax at hlong
            exact Int.bmod_eq_of_le (by omega) (by omega)
        have hpos : 0 ≤ min (timer.expireMs - now) intMax := by
          unfold intMax
          omega
        rw [if_neg hdue, hleft] at h
        obtain ⟨hleast, hentries⟩ := ih h
        have hmin := hleast (by split_ifs <;> omega)
        refine ⟨fun h0 => ?_, forall_mem_cons.mpr ⟨fun _ => ?_, hentries⟩⟩ <;>
          split_ifs at hmin <;> omega

end EventLoop

/-! ### The turn of the timers -/

namespace Timer

/-- The loop drops what it erases, and copies the callbacks of what is due. What lies before the index
    has been dealt with. -/
theorem scan_eq (before timers : List Timer) (expired : List Expired) :
    scan now (before ++ timers) before.length expired = (before ++ timers.filterMap (afterScan now),
      expired ++ (timers.filter (due now)).map Timer.expired) := by
  induction timers generalizing before expired with
  | nil =>
    rw [scan, dif_neg (by simp)]
    simp
  | cons timer timers ih =>
    have hget (h : before.length < (before ++ timer :: timers).length) :
        (before ++ timer :: timers)[before.length] = timer := by simp
    have herase : (before ++ timer :: timers).eraseIdx before.length = before ++ timers := by
      simp [eraseIdx_append_of_length_le]
    -- a timer that stays is one more of those that lie before the index
    have hstays (kept : Timer) (expired : List Expired) :
        scan now (before ++ kept :: timers) (before.length + 1) expired =
          (before ++ kept :: timers.filterMap (afterScan now),
            expired ++ (timers.filter (due now)).map Timer.expired) := by
      simpa using ih (before ++ [kept]) expired
    rw [scan, dif_pos (by simp)]
    simp only [hget]
    by_cases hcancelled : timer.cancelled = true
    · rw [if_pos hcancelled, herase, ih]
      simp [afterScan, due, hcancelled]
    rw [if_neg hcancelled]
    by_cases hdue : timer.expireMs - now ≤ 0
    · rw [if_pos hdue]
      split_ifs with hrepeats
      · rw [set_append_right _ _ le_rfl, Nat.sub_self, set_cons_zero, hstays]
        simp [afterScan, due, hcancelled, hdue, hrepeats]
      · rw [herase, ih]
        simp [afterScan, due, hcancelled, hdue, hrepeats]
    · rw [if_neg hdue, hstays]
      simp [afterScan, due, hcancelled, hdue]

variable {σ : Type} (code : Nat → List Timer × σ → List Timer × σ)

theorem callExpired_eq (expired : List Expired) (state : List Timer × σ) :
    callExpired code expired state =
      ((expired.filterMap Expired.callback).foldl (fun state callback => code callback state) state,
        expired.filter (·.callback.isSome)) := by
  induction expired generalizing state with
  | nil => rfl
  | cons first expired ih =>
    cases hcallback : first.callback with
    | none => simp [callExpired, hcallback, ih]
    | some callback => simp [callExpired, hcallback, ih]

end Timer

/-- What the poll waits for, and what `processTimers` does at the time `now`: the callbacks that it runs,
    which are those of the timers in force that are due, and the timers that it leaves. -/
theorem timers_served :
    (∀ (entries : List TimerEntry) (now requested : Int),
      let timeout := EventLoop.calculateTimeout entries now requested
      ((∃ timer ∈ entries, timer.cancelled = false ∧ timer.expireMs ≤ now) → timeout = 0) ∧
      ((∀ timer ∈ entries, timer.cancelled = false → now < timer.expireMs) →
        (∀ timer ∈ entries, timer.cancelled = false →
          timeout ≤ min (timer.expireMs - now) intMax) ∧
        (0 ≤ requested → timeout ≤ requested) ∧
        (timeout < 0 → requested < 0 ∧ ∀ timer ∈ entries, timer.cancelled = true))) ∧
    ∀ {σ : Type} (code : Nat → List Timer × σ → List Timer × σ) (now : Int) (timers : List Timer)
        (world : σ), (∀ callback state, (code callback state).1 = state.1) →
      let served := timers.filter fun timer =>
        !timer.cancelled && decide (timer.expireMs ≤ now) && timer.callback.isSome
      let left := timers.filterMap fun timer =>
        if timer.cancelled then none
        else if now < timer.expireMs then some timer
        else if timer.repeats = true ∧ timer.intervalMs ≠ 0 then
          some { timer with expireMs := now + timer.intervalMs.toNat }
        else none
      let turn := Timer.processTimers code now timers world
      turn.2 = served.map Timer.expired ∧ turn.1.1 = left ∧
        turn.1 = (served.filterMap Timer.callback).foldl (fun state callback => code callback state)
          (left, world) := by
  refine ⟨fun entries now requested => ⟨fun hdue => ?_, fun hlater => ?_⟩,
    fun {σ} code now timers world hcode => ?_⟩
  · have hsome : entries.isEmpty = false := by
      obtain ⟨timer, hmem, -⟩ := hdue
      cases hmem <;> rfl
    simp [calculateTimeout, hsome, minTimerTimeout_eq_none.mpr hdue]
  · cases entries with
    | nil => simp [calculateTimeout]
    | cons first entries =>
      cases htime : minTimerTimeout now (first :: entries) (-1) with
      | none =>
        obtain ⟨timer, hmem, hlive, hdue⟩ := minTimerTimeout_eq_none.mp htime
        exact absurd (hlater timer hmem hlive) (by omega)
      | some least =>
        have hleast := (minTimerTimeout_le htime).2
        simp only [calculateTimeout, isEmpty_cons, Bool.false_eq_true, if_false, htime]
        refine ⟨fun timer hmem hlive => ?_, fun hrequested => ?_,
          fun hneg => ⟨?_, fun timer hmem => ?_⟩⟩
        · have := hleast timer hmem hlive
          split_ifs <;> omega
        · split_ifs <;> omega
        · split_ifs at hneg <;> omega
        · by_contra hlive
          have := hleast timer hmem (by simpa using hlive)
          split_ifs at hneg <;> omega
  · intro served left turn
    have hleft : left = timers.filterMap (Timer.afterScan now) :=
      filterMap_congr fun timer _ => by
        simp only [Timer.afterScan, Bool.and_eq_true, decide_eq_true_eq, UInt32.pos_iff_ne_zero]
        split_ifs <;> first | rfl | omega
    have hturn : turn = Timer.callExpired code ((timers.filter (Timer.due now)).map Timer.expired)
        (left, world) := by
      rw [hleft]
      cases timers with
      | nil => rfl
      | cons first timers =>
        have hscan : Timer.scan now (first :: timers) 0 [] = _ :=
          Timer.scan_eq [] (first :: timers) []
        rw [nil_append, nil_append] at hscan
        simp only [turn, Timer.processTimers, isEmpty_cons, Bool.false_eq_true, if_false, hscan]
    have hkept (callbacks : List Nat) (state : List Timer × σ) :
        (callbacks.foldl (fun state callback => code callback state) state).1 = state.1 := by
      induction callbacks generalizing state with
      | nil => rfl
      | cons callback callbacks ih => rw [foldl_cons, ih, hcode]
    have hserved : served = (timers.filter (Timer.due now)).filter (·.callback.isSome) := by
      simp [served, Timer.due, filter_filter, Bool.and_comm]
    rw [Timer.callExpired_eq] at hturn
    refine ⟨?_, ?_, ?_⟩
    · rw [hturn, hserved, filter_map]
      rfl
    · rw [hturn, hkept]
    · rw [hturn, hserved, filterMap_filter, filterMap_map]
      refine congrArg (foldl _ _) (filterMap_congr fun timer _ => ?_)
      cases hcallback : timer.callback <;> simp [Timer.expired, hcallback]

end OmniBinder
