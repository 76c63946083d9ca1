/-
Module: OmniBinder.Lib.Machine
Purpose: Runs of a deterministic machine that takes one event after another, the rule that carries an
  invariant along a run all of whose steps meet a condition, `while` loops with a bound on the number of
  their turns, and steps that may fail on a state with a sticky failure flag.
Trusted boundary: none
Main exports: Machine.run_invariant, repeatWhile_bound, Sticky.Step
-/
import Mathlib.Data.List.Basic
import Mathlib.Tactic.Linarith

namespace Machine

variable {σ ε : Type} (step : σ → ε → σ)

/-- The state after a list of events. -/
def run (s : σ) (events : List ε) : σ := events.foldl step s

/-- Every step of the run meets the condition in the state it is taken in. -/
def RunsUnder (condition : σ → ε → Prop) : σ → List ε → Prop
  | _, [] => True
  | s, event :: events => condition s event ∧ RunsUnder condition (step s event) events

instance instDecidableRunsUnder (condition : σ → ε → Prop)
    [∀ s event, Decidable (condition s event)] :
    ∀ s events, Decidable (RunsUnder step condition s events)
  | _, [] => inferInstanceAs (Decidable True)
  | s, event :: events =>
    have := instDecidableRunsUnder condition (step s event) events
    inferInstanceAs
      (Decidable (condition s event ∧ RunsUnder step condition (step s event) events))

variable {step} {condition : σ → ε → Prop}

@[simp]
theorem run_nil (s : σ) : run step s [] = s := rfl

@[simp]
theorem run_cons (s : σ) (event : ε) (events : List ε) :
    run step s (event :: events) = run step (step s event) events := rfl

theorem run_append (s : σ) (first second : List ε) :
    run step s (first ++ second) = run step (run step s first) second :=
  List.foldl_append

/-- What holds at the start and is kept by every step that meets the condition holds at the end. -/
theorem run_invariant {P : σ → Prop}
    (hstep : ∀ s event, P s → condition s event → P (step s event)) {s : σ} {events : List ε}
    (hruns : RunsUnder step condition s events) (hs : P s) : P (run step s events) := by
  induction events generalizing s with
  | nil => exact hs
  | cons event events ih => exact ih hruns.2 (hstep s event hs hruns.1)

/-- What every step keeps holds at the end of every run. -/
theorem run_invariant_of_step {P : σ → Prop} (hstep : ∀ s event, P s → P (step s event)) {s : σ}
    (events : List ε) (hs : P s) : P (run step s events) := by
  induction events generalizing s with
  | nil => exact hs
  | cons event events ih => exact ih (hstep s event hs)

/-- The steps of a run that is cut in two meet the condition in both parts. -/
theorem runsUnder_append {s : σ} {first second : List ε} :
    RunsUnder step condition s (first ++ second) ↔
      RunsUnder step condition s first ∧ RunsUnder step condition (run step s first) second := by
  induction first generalizing s with
  | nil => exact ⟨fun h => ⟨trivial, h⟩, fun h => h.2⟩
  | cons event events ih =>
    simp only [List.cons_append, RunsUnder, ih, run_cons, and_assoc]

end Machine

variable {σ : Type}

/-- The body as long as the condition holds, at most the given number of times. -/
def repeatWhile (continues : σ → Bool) (body : σ → σ) : Nat → σ → σ
  | 0, s => s
  | turns + 1, s => if continues s then repeatWhile continues body turns (body s) else s

variable {continues : σ → Bool} {body : σ → σ}

theorem repeatWhile_of_false {s : σ} (h : continues s = false) (turns : Nat) :
    repeatWhile continues body turns s = s := by
  cases turns with
  | zero => rfl
  | succ turns => rw [repeatWhile, h, if_neg Bool.false_ne_true]

theorem repeatWhile_of_true {s : σ} (h : continues s = true) (turns : Nat) :
    repeatWhile continues body (turns + 1) s = repeatWhile continues body turns (body s) := by
  rw [repeatWhile, if_pos h]

/-- What the body keeps holds at the end. -/
theorem repeatWhile_invariant {P : σ → Prop} (hbody : ∀ s, continues s = true → P s → P (body s)) :
    ∀ (turns : Nat) {s : σ}, P s → P (repeatWhile continues body turns s) := by
  intro turns
  induction turns with
  | zero => exact id
  | succ turns ih =>
    intro s h
    cases hcontinues : continues s with
    | false => rwa [repeatWhile_of_false hcontinues]
    | true =>
      rw [repeatWhile_of_true hcontinues]
      exact ih (hbody s hcontinues h)

/-- Two bodies that agree where the loop gets to. -/
theorem repeatWhile_congr {body' : σ → σ} {P : σ → Prop}
    (hsame : ∀ s, continues s = true → P s → body s = body' s)
    (hbody : ∀ s, continues s = true → P s → P (body s)) : ∀ (turns : Nat) {s : σ}, P s →
      repeatWhile continues body turns s = repeatWhile continues body' turns s := by
  intro turns
  induction turns with
  | zero => exact fun _ => rfl
  | succ turns ih =>
    intro s h
    cases hcontinues : continues s with
    | false => rw [repeatWhile_of_false hcontinues, repeatWhile_of_false hcontinues]
    | true =>
      rw [repeatWhile_of_true hcontinues, repeatWhile_of_true hcontinues,
        ← hsame s hcontinues h]
      exact ih (hbody s hcontinues h)

section
variable {m : σ → Nat} (hbody : ∀ s, continues s = true → m (body s) < m s)
include hbody

theorem continues_eq_false_of_zero {s : σ} (h : m s ≤ 0) : continues s = false := by
  refine Bool.eq_false_iff.mpr fun hcontinues => ?_
  exact Nat.not_lt_zero _ (Nat.lt_of_lt_of_le (hbody s hcontinues) h)

/-- With enough turns, more of them make no difference. -/
theorem repeatWhile_bound : ∀ {turns turns' : Nat} {s : σ}, m s ≤ turns → m s ≤ turns' →
    repeatWhile continues body turns s = repeatWhile continues body turns' s := by
  intro turns
  induction turns with
  | zero =>
    intro turns' s h _
    have hstop := continues_eq_false_of_zero hbody h
    rw [repeatWhile_of_false hstop, repeatWhile_of_false hstop]
  | succ turns ih =>
    intro turns' s h h'
    cases hcontinues : continues s with
    | false => rw [repeatWhile_of_false hcontinues, repeatWhile_of_false hcontinues]
    | true =>
      have hless := hbody s hcontinues
      cases turns' with
      | zero => omega
      | succ turns' =>
        rw [repeatWhile_of_true hcontinues, repeatWhile_of_true hcontinues]
        exact ih (by omega) (by omega)

end

namespace OmniBinder.Sticky

open List

variable {σ : Type}

/-- A step that raises the flag when it fails and does nothing under a raised flag. -/
structure Step (failed : σ → Bool) (step : σ → Bool × σ) : Prop where
  raises : ∀ s, (step s).1 = false → failed (step s).2 = true
  inert : ∀ s, failed s = true → step s = (false, s)

/-- Stop at the first step that fails. -/
def runUntilFailure : List (σ → Bool × σ) → σ → Bool × σ
  | [], s => (true, s)
  | step :: steps, s =>
    match step s with
    | (false, s) => (false, s)
    | (true, s) => runUntilFailure steps s

/-- Take every step, whatever it answers. -/
def runAll (steps : List (σ → Bool × σ)) (s : σ) : σ := steps.foldl (fun s step => (step s).2) s

@[simp]
theorem runAll_nil (s : σ) : runAll [] s = s := rfl

@[simp]
theorem runAll_cons (step : σ → Bool × σ) (steps : List (σ → Bool × σ)) (s : σ) :
    runAll (step :: steps) s = runAll steps (step s).2 := rfl

theorem runAll_append (first second : List (σ → Bool × σ)) (s : σ) :
    runAll (first ++ second) s = runAll second (runAll first s) := foldl_append

theorem runUntilFailure_append (first second : List (σ → Bool × σ)) (s : σ) :
    runUntilFailure (first ++ second) s =
      match runUntilFailure first s with
      | (false, s) => (false, s)
      | (true, s) => runUntilFailure second s := by
  induction first generalizing s with
  | nil => rfl
  | cons step first ih =>
    simp only [cons_append, runUntilFailure]
    rcases step s with ⟨ok, s'⟩
    cases ok with
    | false => rfl
    | true => exact ih s'

section
variable {failed : σ → Bool}

/-- Under a raised flag nothing happens any more. -/
theorem runAll_of_failed {steps : List (σ → Bool × σ)} (hsteps : ∀ step ∈ steps, Step failed step)
    {s : σ} (hfailed : failed s = true) : runAll steps s = s := by
  induction steps with
  | nil => rfl
  | cons step steps ih =>
    rw [runAll_cons, (hsteps step mem_cons_self).inert s hfailed]
    exact ih fun other hother => hsteps other (mem_cons_of_mem _ hother)

/-- Stopping at the first failure or not makes no difference to the state left behind. -/
theorem runUntilFailure_snd {steps : List (σ → Bool × σ)}
    (hsteps : ∀ step ∈ steps, Step failed step) (s : σ) :
    (runUntilFailure steps s).2 = runAll steps s := by
  induction steps generalizing s with
  | nil => rfl
  | cons step steps ih =>
    have hrest : ∀ other ∈ steps, Step failed other :=
      fun other hother => hsteps other (mem_cons_of_mem _ hother)
    have hraises := (hsteps step mem_cons_self).raises s
    simp only [runUntilFailure, runAll_cons]
    rcases hstep : step s with ⟨ok, s'⟩
    rw [hstep] at hraises
    cases ok with
    | false => exact (runAll_of_failed hrest (hraises rfl)).symm
    | true => exact ih hrest s'

end

end OmniBinder.Sticky
