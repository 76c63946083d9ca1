/-
Module: OmniBinder.Proofs.PollBudget
Purpose: The arguments that waits hand to their polls. Each is the time left of the wait, read from the
  clock after the deadline was checked and narrowed to an `int`.
Trusted boundary: none
Main exports: EventLoop.calculateTimeout_bounds, ReplyWaits.polls_without_end
-/
import Mathlib.Data.Int.ConditionallyCompleteOrder
import OmniBinder.Proofs.ReplyRouting

namespace OmniBinder

open List ReplyWaits EventLoop

/-! ### From the request to the backend -/

/-- A request that is not negative is only ever cut down, and not below zero. -/
theorem EventLoop.calculateTimeout_bounds (timers : List TimerEntry) (now : Int) {requested : Int}
    (h : 0 ≤ requested) :
    0 ≤ calculateTimeout timers now requested ∧ calculateTimeout timers now requested ≤ requested := by
  unfold calculateTimeout
  by_cases htimers : timers.isEmpty
  · rw [if_pos htimers]
    exact ⟨h, le_refl _⟩
  rw [if_neg htimers]
  cases minTimerTimeout now timers (-1) with
  | none => exact ⟨le_refl _, h⟩
  | some least =>
    dsimp only
    split_ifs <;> omega

/-- The narrowed value is in range exactly when nothing is lost and the value is not negative. -/
theorem narrowToInt_within_iff {value : Int} (h : value < 2 ^ 32) :
    (0 ≤ narrowToInt value ∧ narrowToInt value ≤ value) ↔ 0 ≤ value ∧ value < 2 ^ 31 := by
  unfold narrowToInt Int.bmod
  norm_num at h ⊢
  split_ifs <;> omega

namespace ReplyWaits

variable {clock : Nat → Int} {s s' : ReplyWaits} {frame : WaitFrame}

/-! ### What is known of a poll -/

/-- The waits in progress began at readings of the clock. -/
def Started (clock : Nat → Int) (s : ReplyWaits) : Prop :=
  ∀ f ∈ s.frames, ∃ i < s.readings, f.startedAt = clock i

/-- The deadline of the wait that has its turn in an event, the time at which it checks the deadline, and
    the time from which it computes the argument of its poll, if it polls. -/
def pollTimes (clock : Nat → Int) (s : ReplyWaits) : WaitEvent → Option (Int × Int × Int)
  | .call _ _ timeoutMs _ =>
    some (clock s.readings + timeoutMs.toNat, clock (s.readings + 1), clock (s.readings + 2))
  | .pollReturned _ => some (s.rpc.waitDeadlineMs, clock s.readings, clock (s.readings + 1))
  | .message _ _ => none
  | .clearReplies => none

/-- An entry of the history, if it is a poll, is one of a wait with these times that began before. -/
def Polls (times : Option (Int × Int × Int)) (entry : WaitEntry) : Prop :=
  ∀ startedAt timeoutMs now argument, entry = .polled startedAt timeoutMs now argument →
    ∃ deadline checked, times = some (deadline, checked, now) ∧ checked < deadline ∧
      deadline = startedAt + timeoutMs.toNat ∧ startedAt ≤ now ∧
      argument = narrowToInt (deadline - now)

theorem polls_of_ne {times : Option (Int × Int × Int)} {entry : WaitEntry}
    (h : ∀ startedAt timeoutMs now argument, entry ≠ .polled startedAt timeoutMs now argument) :
    Polls times entry :=
  fun _ _ _ _ heq => absurd heq (h _ _ _ _)

/-- A turn keeps the waits in progress, and adds one entry to the history. -/
theorem Turn.started_polls (hclock : Monotone clock) (h : Turn clock s frame s')
    (hstarted : Started clock (s.push frame))
    (hdeadline : s.rpc.waitDeadlineMs = frame.startedAt + frame.timeoutMs.toNat) :
    Started clock s' ∧ ∃ entry, s'.history = entry :: s.history ∧
      Polls (some (s.rpc.waitDeadlineMs, clock s.readings, clock (s.readings + 1))) entry := by
  have hend : ∀ readings, s.readings ≤ readings → ∀ result,
      Started clock ({ s with readings }.endWait frame result) ∧
        ∃ entry, ({ s with readings }.endWait frame result).history = entry :: s.history ∧
          Polls (some (s.rpc.waitDeadlineMs, clock s.readings, clock (s.readings + 1))) entry := by
    intro readings hle result
    refine ⟨?_, _, history_endWait .., polls_of_ne nofun⟩
    unfold Started
    rw [frames_endWait, readings_endWait]
    intro f hf
    obtain ⟨i, hi, htime⟩ := hstarted f (mem_cons_of_mem _ hf)
    exact ⟨i, lt_of_lt_of_le hi hle, htime⟩
  cases h with
  | answered | lost => exact hend s.readings (le_refl _) _
  | expired | failed => exact hend _ (Nat.le_succ _) _
  | polls _ hearly =>
    refine ⟨fun f hf => ?_, _, rfl, ?_⟩
    · obtain ⟨i, hi, htime⟩ := hstarted f hf
      exact ⟨i, lt_of_lt_of_le hi (Nat.le_add_right _ _), htime⟩
    · intro startedAt timeoutMs now argument heq
      cases heq
      obtain ⟨i, hi, htime⟩ := hstarted frame mem_cons_self
      exact ⟨_, _, rfl, hearly, hdeadline, htime ▸ hclock (le_of_lt (Nat.lt_succ_of_lt hi)), rfl⟩

/-- An event keeps the waits in progress, and the polls it adds to the history have its times. -/
theorem started_polls_step (hclock : Monotone clock) {base : Bool × Int} (event : WaitEvent)
    (hstarted : Started clock s) (hnested : Nested base s.frames s.flags) :
    Started clock (s.step clock event) ∧ ∃ recent, (s.step clock event).history = recent ++ s.history ∧
      ∀ entry ∈ recent, Polls (s.pollTimes clock event) entry := by
  have hnothing : ∀ times : Option (Int × Int × Int), ∃ recent, s.history = recent ++ s.history ∧
      ∀ entry ∈ recent, Polls times entry :=
    fun _ => ⟨[], rfl, fun _ he => by cases he⟩
  cases event with
  | call plane seq timeoutMs watchesConnection =>
    let frame := s.frameFor clock plane seq timeoutMs watchesConnection
    have hflags : (s.enterWait frame).flags = _ := flags_enterWait
    have hdeadline : (s.enterWait frame).rpc.waitDeadlineMs = _ := congrArg Prod.snd hflags
    have hreadings : (s.enterWait frame).readings = s.readings + 1 := readings_enterWait
    have hentered : Started clock ((s.enterWait frame).push frame) := by
      have hframes : ((s.enterWait frame).push frame).frames = frame :: s.frames :=
        congrArg _ frames_enterWait
      have hpushed : ((s.enterWait frame).push frame).readings = s.readings + 1 := hreadings
      unfold Started
      rw [hframes, hpushed]
      refine forall_mem_cons.2 ⟨⟨s.readings, Nat.lt_succ_self _, rfl⟩, fun f hf => ?_⟩
      obtain ⟨i, hi, htime⟩ := hstarted f hf
      exact ⟨i, Nat.lt_succ_of_lt hi, htime⟩
    obtain ⟨hkept, entry, hhistory, hpolls⟩ :=
      (turn_waitLoop (s.enterWait frame) clock frame).started_polls hclock hentered hdeadline
    rw [history_enterWait] at hhistory
    rw [hreadings, hdeadline] at hpolls
    refine ⟨hkept, [entry, _], hhistory, ?_⟩
    refine forall_mem_cons.2 ⟨hpolls, forall_mem_singleton.2 ?_⟩
    exact polls_of_ne (by simp)
  | message plane msg =>
    rcases s.onMessage_cases plane msg with
      hsame | ⟨_, _, -, -, -, hhistory, hframes, -, hreadings⟩
    · rw [step, hsame]
      exact ⟨hstarted, hnothing _⟩
    refine ⟨?_, [_], hhistory, forall_mem_singleton.2 ?_⟩
    · unfold Started
      rw [step, hframes, hreadings]
      exact hstarted
    · exact polls_of_ne (by simp)
  | clearReplies =>
    refine ⟨hstarted, [_], rfl, forall_mem_singleton.2 ?_⟩
    exact polls_of_ne (by simp)
  | pollReturned alive =>
    cases hframes : s.frames with
    | nil =>
      rw [step, pollReturned_of_nil hframes]
      exact ⟨hstarted, hnothing _⟩
    | cons frame frames =>
      rw [hframes] at hnested
      obtain ⟨hkept, entry, hhistory, hpolls⟩ :=
        (s.turn_pollReturned clock hframes alive).started_polls hclock
          ((push_of_frames hframes).symm ▸ hstarted) (congrArg Prod.snd hnested.1)
      exact ⟨hkept, [entry], hhistory, forall_mem_singleton.2 hpolls⟩

/-! ### Whole runs -/

/-- If the wait that has its turn in an event is not over when it checks its deadline, it is not over
    either when it reads the clock again, and less than 2^31 milliseconds are left to it then. -/
def keepsBudget (clock : Nat → Int) (s : ReplyWaits) (event : WaitEvent) : Prop :=
  ∀ times ∈ s.pollTimes clock event, times.2.1 < times.1 →
    times.2.2 ≤ times.1 ∧ times.1 - times.2.2 < 2 ^ 31

instance (clock : Nat → Int) (s : ReplyWaits) (event : WaitEvent) :
    Decidable (s.keepsBudget clock event) :=
  inferInstanceAs (Decidable (∀ times ∈ s.pollTimes clock event, _))

/-- The argument of a poll is between zero and what is left of its wait. -/
def withinBudget : WaitEntry → Prop
  | .polled startedAt timeoutMs now argument =>
    0 ≤ argument ∧ argument ≤ startedAt + timeoutMs.toNat - now
  | _ => True

/-- A poll is within its budget exactly when the event it is made in keeps the budget. -/
theorem withinBudget_iff {event : WaitEvent} {startedAt now argument : Int} {timeoutMs : UInt32}
    (h : Polls (s.pollTimes clock event) (.polled startedAt timeoutMs now argument)) :
    withinBudget (.polled startedAt timeoutMs now argument) ↔ s.keepsBudget clock event := by
  obtain ⟨deadline, checked, htimes, hearly, rfl, hbegun, rfl⟩ := h _ _ _ _ rfl
  have htimeout : timeoutMs.toNat < 2 ^ 32 := timeoutMs.toNat_lt
  have hleft : startedAt + timeoutMs.toNat - now < 2 ^ 32 := by omega
  simp only [withinBudget, keepsBudget, htimes, narrowToInt_within_iff hleft, Option.mem_some_iff,
    forall_eq', hearly, true_imp_iff, sub_nonneg]

/-- In every run with a clock that never goes back: when every event keeps the budget, the arguments of
    all polls lie between zero and what is left of the wait, and so does what the event loop hands to
    the backend for them, whatever the timers; and a poll made in an event that does not keep the budget
    does not lie between them. -/
theorem poll_arguments_within_budget (clock : Nat → Int) (hclock : Monotone clock) (s₀ : ReplyWaits)
    (hidle : s₀.Idle) (events : List WaitEvent) :
    let s := Machine.run (ReplyWaits.step clock) s₀ events
    (Machine.RunsUnder (ReplyWaits.step clock) (keepsBudget clock) s₀ events →
      ∀ (startedAt : Int) (timeoutMs : UInt32) (now argument : Int),
        .polled startedAt timeoutMs now argument ∈ s.history →
          (0 ≤ argument ∧ argument ≤ startedAt + timeoutMs.toNat - now) ∧
          ∀ timers time,
            0 ≤ EventLoop.calculateTimeout timers time argument ∧
            EventLoop.calculateTimeout timers time argument ≤ startedAt + timeoutMs.toNat - now) ∧
    ∀ event recent (startedAt : Int) (timeoutMs : UInt32) (now argument : Int),
      ¬ s.keepsBudget clock event →
      (s.step clock event).history =
          .polled startedAt timeoutMs now argument :: (recent ++ s.history) →
        ¬ (0 ≤ argument ∧ argument ≤ startedAt + timeoutMs.toNat - now) := by
  intro s
  have hstart : Started clock s₀ := by
    unfold Started
    rw [hidle.frames]
    exact fun _ hf => by cases hf
  refine ⟨fun hruns => ?_, ?_⟩
  · have hwithin : (Started clock s ∧ Nested s₀.flags s.frames s.flags) ∧
        ∀ entry ∈ s.history, withinBudget entry := by
      refine Machine.run_invariant (P := fun s => (Started clock s ∧ Nested s₀.flags s.frames s.flags) ∧
        ∀ entry ∈ s.history, withinBudget entry) (fun s event h hkeeps => ?_) hruns
        ⟨⟨hstart, hidle.nested⟩, by rw [hidle.history]; nofun⟩
      obtain ⟨hstarted, recent, hhistory, hpolls⟩ := started_polls_step hclock event h.1.1 h.1.2
      refine ⟨⟨hstarted, nested_step event h.1.2⟩, ?_⟩
      rw [hhistory]
      refine forall_mem_append.2 ⟨fun entry hentry => ?_, h.2⟩
      cases entry with
      | polled => exact (withinBudget_iff (hpolls _ hentry)).2 hkeeps
      | called | consumed | cleared | returned => trivial
    intro startedAt timeoutMs now argument hmem
    obtain ⟨hlow, hhigh⟩ := hwithin.2 _ hmem
    refine ⟨⟨hlow, hhigh⟩, fun timers time => ?_⟩
    obtain ⟨hlow', hhigh'⟩ := calculateTimeout_bounds timers time hlow
    exact ⟨hlow', le_trans hhigh' hhigh⟩
  · intro event recent startedAt timeoutMs now argument hkeeps hhead hwithin
    have hreached : Started clock s ∧ Nested s₀.flags s.frames s.flags :=
      Machine.run_invariant_of_step
        (P := fun s => Started clock s ∧ Nested s₀.flags s.frames s.flags)
        (fun s event h => ⟨(started_polls_step hclock event h.1 h.2).1, nested_step event h.2⟩) events
        ⟨hstart, hidle.nested⟩
    obtain ⟨-, added, hadded, hpolls⟩ := started_polls_step hclock event hreached.1 hreached.2
    -- the poll is the newest entry, so the event has added it
    have hmem : WaitEntry.polled startedAt timeoutMs now argument ∈ added := by
      cases added with
      | nil => exact absurd (hadded.symm.trans hhead) history_ne_cons
      | cons entry added =>
        obtain ⟨rfl, -⟩ := List.cons.inj (hhead.symm.trans hadded)
        exact mem_cons_self
    exact hkeeps ((withinBudget_iff (hpolls _ hmem)).1 hwithin)

/-- A wait of a second that is read at its start, one millisecond before its deadline, and then at its
    deadline. -/
theorem poll_at_deadline_returns_at_once :
    let clock : Nat → Int := fun n => if n = 0 then 0 else if n = 1 then 999 else 1000
    let s := Machine.run (ReplyWaits.step clock) ReplyWaits.init [.call .control 1 1000 false]
    Monotone clock ∧ .polled 0 1000 1000 0 ∈ s.history ∧
      EventLoop.calculateTimeout [] 1000 0 = 0 := by
  intro clock s
  have hclock : Monotone clock := by
    refine monotone_nat_of_le_succ fun n => ?_
    rcases n with _ | _ | n <;> simp [clock]
  have hmem : WaitEntry.polled 0 1000 1000 0 ∈ s.history := by decide +kernel
  have hbudget := (poll_arguments_within_budget clock hclock init idle_init
    [.call .control 1 1000 false]).1 (by decide +kernel) 0 1000 1000 0 hmem
  exact ⟨hclock, hmem, le_antisymm (hbudget.2 [] 1000).2 (hbudget.2 [] 1000).1⟩

/-- The deadline of a wait of a second passes between the check and the poll, and the poll asks for
    `-1`. A wait of 2^31 milliseconds asks for a negative time although the clock stands still. Without
    a timer the backend waits for ever in both cases. -/
theorem polls_without_end :
    let clock : Nat → Int := fun n => if n = 0 then 0 else if n = 1 then 999 else 1001
    .polled 0 1000 1001 (-1) ∈
        (Machine.run (ReplyWaits.step clock) ReplyWaits.init
          [.call .control 1 1000 false]).history ∧
      .polled 0 0x80000000 0 (-0x80000000) ∈
        (Machine.run (ReplyWaits.step fun _ => 0) ReplyWaits.init
          [.call .control 1 0x80000000 false]).history ∧
      EventLoop.calculateTimeout [] 1001 (-1) < 0 ∧
      EventLoop.calculateTimeout [] 0 (-0x80000000) < 0 := by
  decide +kernel

end ReplyWaits

end OmniBinder
