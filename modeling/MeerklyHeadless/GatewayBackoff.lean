import MeerklyHeadless.GatewayHandlers
import Mathlib.Tactic

/-!
# The backoff of the connect loop

The delay after an attempt is meant to start over when the connection stayed
up, and to double up to a ceiling otherwise.  The loop measures an attempt
from before it connects, so an attempt that is slow to fail counts as one
that stayed up.  `Retry` is the loop as far as its delays are concerned:
between two sleeps there is one attempt, whatever phase it is in.
-/

namespace MeerklyHeadless

open ExceptionState
open JsonSchema
open TransitionRuns

/-! ## The law -/

def backoffResetAfter : ℕ := backoffResetAfterMs * nanosPerMs

/-- The connection came up and was open for the whole reset interval, its closing
handshake included. -/
def Pause.stayedUp (pause : Pause) : Bool :=
  pause.attempt.openedAt.any fun opened => backoffResetAfter ≤ pause.endedAt - opened

/-- The test of `_run_forever`: the interval has passed since the attempt was
begun. -/
def Pause.longAttempt (pause : Pause) : Bool :=
  backoffResetAfter ≤ pause.endedAt - pause.attempt.startedAt

/-- The delay that is due after the given pauses if nothing resets it. -/
def dueDelay (before : List Pause) : ℕ :=
  (before.getLast?).elim initialBackoffMs fun previous => nextBackoffMs previous.delayMs

/-- Every delay starts over where the rule says so and else follows the delay
before it. -/
def DelaysBy (resets : Pause → Bool) (pauses : List Pause) : Prop :=
  ∀ before pause after, pauses = before ++ pause :: after →
    pause.delayMs = if resets pause then initialBackoffMs else dueDelay before

structure BackoffLaw (pauses : List Pause) : Prop where
  delays : DelaysBy Pause.stayedUp pauses
  /-- a stretch of attempts that never opened doubles the delay that was due
  before it; the first of a run is due after the initial delay -/
  unopened : ∀ before stretch pause after, pauses = before ++ (stretch ++ pause :: after) →
    (∀ failed ∈ stretch ++ [pause], failed.attempt.openedAt = none) →
      pause.delayMs = min (dueDelay before * 2 ^ stretch.length) maxBackoffMs

@[simp] theorem dueDelay_nil : dueDelay [] = initialBackoffMs := rfl

@[simp] theorem dueDelay_append (before : List Pause) (pause : Pause) :
    dueDelay (before ++ [pause]) = nextBackoffMs pause.delayMs := by
  simp [dueDelay]

theorem dueDelay_le (before : List Pause) : dueDelay before ≤ maxBackoffMs := by
  unfold dueDelay
  cases before.getLast? with
  | none => decide
  | some previous => exact Nat.min_le_right _ _

theorem DelaysBy.nil (resets : Pause → Bool) : DelaysBy resets [] := by
  intro before pause after h
  simp at h

theorem DelaysBy.snoc {resets : Pause → Bool} {pauses : List Pause} {last : Pause}
    (h : DelaysBy resets pauses)
    (hlast : last.delayMs = if resets last then initialBackoffMs else dueDelay pauses) :
    DelaysBy resets (pauses ++ [last]) := by
  intro before pause after hsplit
  rcases List.eq_nil_or_concat after with rfl | ⟨middle, final, rfl⟩
  · obtain ⟨rfl, hsame⟩ := List.append_inj' hsplit rfl
    simp only [List.cons.injEq, and_true] at hsame
    subst hsame
    exact hlast
  · have hlonger : pauses ++ [last] = (before ++ pause :: middle) ++ [final] := by
      rw [hsplit]
      simp
    obtain ⟨hpauses, -⟩ := List.append_inj' hlonger rfl
    exact h before pause middle hpauses

theorem stayedUp_of_unopened {pause : Pause} (h : pause.attempt.openedAt = none) :
    pause.stayedUp = false := by
  simp [Pause.stayedUp, h]

/-- The second part of the law follows from the first. -/
theorem DelaysBy.law {pauses : List Pause} (h : DelaysBy Pause.stayedUp pauses) :
    BackoffLaw pauses := by
  refine ⟨h, ?_⟩
  intro before stretch
  induction stretch using List.reverseRecOn with
  | nil =>
      intro pause after hsplit hfailed
      have hpause := stayedUp_of_unopened (hfailed pause (by simp))
      have hdelay := h before pause after hsplit
      simp only [hpause, Bool.false_eq_true, if_false] at hdelay
      rw [hdelay, List.length_nil, pow_zero, mul_one]
      exact (min_eq_left (dueDelay_le before)).symm
  | append_singleton stretch previous ih =>
      intro pause after hsplit hfailed
      have hpause := stayedUp_of_unopened (hfailed pause (by simp))
      have hprevious := ih previous (pause :: after) (by simpa using hsplit) fun failed hmem =>
        hfailed failed (List.mem_append_left _ hmem)
      have hdelay := h (before ++ stretch ++ [previous]) pause after (by simpa using hsplit)
      simp only [hpause, Bool.false_eq_true, if_false, dueDelay_append] at hdelay
      rw [hdelay, hprevious, nextBackoffMs, List.length_append, List.length_singleton, pow_succ,
        ← mul_assoc]
      omega

/-! ## The law and the test of the loop -/

/-- The clock was read at the beginning, when the connection came up and at the
end, in this order. -/
structure Attempt.Timed (attempt : Attempt) (now : ℕ) : Prop where
  started : attempt.startedAt ≤ now
  opened : ∀ opened ∈ attempt.openedAt, attempt.startedAt ≤ opened ∧ opened ≤ now

theorem Attempt.Timed.later {attempt : Attempt} {now later : ℕ} (h : attempt.Timed now)
    (hlater : now ≤ later) : attempt.Timed later where
  started := h.started.trans hlater
  opened opened hopened := ⟨(h.opened opened hopened).1, (h.opened opened hopened).2.trans hlater⟩

theorem longAttempt_of_stayedUp {pause : Pause} (htimed : pause.attempt.Timed pause.endedAt)
    (h : pause.stayedUp = true) : pause.longAttempt = true := by
  obtain ⟨opened, hopened, hlong⟩ := (Option.any_eq_true _ _).mp h
  have horder := (htimed.opened opened hopened).1
  simp only [Pause.longAttempt, decide_eq_true_eq] at hlong ⊢
  omega

theorem DelaysBy.front {resets : Pause → Bool} {front rest : List Pause}
    (h : DelaysBy resets (front ++ rest)) : DelaysBy resets front := by
  intro before pause after hsplit
  apply h before pause (after ++ rest)
  rw [hsplit]
  simp

theorem initialBackoff_lt_dueDelay {before : List Pause} (hne : before ≠ [])
    (hdelays : ∀ pause ∈ before, initialBackoffMs ≤ pause.delayMs) :
    initialBackoffMs < dueDelay before := by
  obtain ⟨front, previous, rfl⟩ := (List.eq_nil_or_concat before).resolve_left hne
  have hdelay := hdelays previous (by simp)
  rw [List.concat_eq_append, dueDelay_append]
  simp only [nextBackoffMs, initialBackoffMs, maxBackoffMs] at hdelay ⊢
  omega

theorem DelaysBy.initial_le {resets : Pause → Bool} {pauses : List Pause}
    (h : DelaysBy resets pauses) : ∀ pause ∈ pauses, initialBackoffMs ≤ pause.delayMs := by
  induction pauses using List.reverseRecOn with
  | nil => simp
  | append_singleton front last ih =>
      have hfront := ih h.front
      intro pause hpause
      rcases List.mem_append.mp hpause with hearlier | hlast
      · exact hfront pause hearlier
      · rw [List.mem_singleton.mp hlast, h front last [] rfl]
        by_cases hresets : resets last = true
        · simp [hresets]
        · rw [if_neg hresets]
          by_cases hempty : front = []
          · simp [hempty]
          · exact (initialBackoff_lt_dueDelay hempty hfront).le

/-- Delays that follow the loop's test obey the law exactly when no attempt but
the first was long without its connection having stayed up. -/
theorem DelaysBy.law_iff {pauses : List Pause} (h : DelaysBy Pause.longAttempt pauses)
    (htimed : ∀ pause ∈ pauses, pause.attempt.Timed pause.endedAt) :
    BackoffLaw pauses ↔
      ∀ pause ∈ pauses.tail, pause.longAttempt = true → pause.stayedUp = true := by
  constructor
  · intro hlaw pause hpause hlong
    by_contra hdown
    obtain ⟨first, rest, rfl⟩ := List.exists_cons_of_ne_nil
      (List.ne_nil_of_mem (List.mem_of_mem_tail hpause))
    obtain ⟨middle, after, hrest⟩ := List.append_of_mem hpause
    have hsplit : first :: rest = (first :: middle) ++ pause :: after :=
      congrArg (first :: ·) hrest
    have hreset := h _ pause after hsplit
    have hdue := hlaw.delays _ pause after hsplit
    have hstrict : initialBackoffMs < dueDelay (first :: middle) := by
      apply initialBackoff_lt_dueDelay (by simp)
      intro earlier hearlier
      apply h.initial_le
      rw [hsplit]
      exact List.mem_append_left _ hearlier
    rw [if_pos hlong] at hreset
    rw [if_neg hdown] at hdue
    omega
  · intro hshort
    apply DelaysBy.law
    intro before pause after hsplit
    have hdelay := h before pause after hsplit
    by_cases hempty : before = []
    · subst hempty
      simpa using hdelay
    · rw [hdelay]
      have hmem : pause ∈ pauses := by simp [hsplit]
      have htail : pause ∈ pauses.tail := by
        rw [hsplit, List.tail_append_of_ne_nil hempty]
        simp
      have hsame : pause.longAttempt = pause.stayedUp := by
        rw [Bool.eq_iff_iff]
        exact ⟨hshort pause htail, longAttempt_of_stayedUp (htimed pause hmem)⟩
      rw [hsame]

/-! ## The loop as a machine of attempts and delays -/

inductive RetryPhase
  | idle
  | attempting (attempt : Attempt)
  | sleeping
  | over
  deriving DecidableEq, Repr

structure Retry where
  phase : RetryPhase
  backoffMs : ℕ
  clock : ℕ
  pauses : List Pause

/-- The delay that `_run_forever` sleeps after the attempt. -/
def Retry.delayAfter (retry : Retry) (attempt : Attempt) : ℕ :=
  if backoffResetAfter ≤ retry.clock - attempt.startedAt then initialBackoffMs
  else retry.backoffMs

inductive RetryMoves (retry : Retry) : Retry → Prop
  | kept : RetryMoves retry retry
  | ticked (nanos : ℕ) : RetryMoves retry { retry with clock := retry.clock + nanos }
  | began (idle : retry.phase = .idle) :
      RetryMoves retry { retry with phase := .attempting ⟨retry.clock, none⟩ }
  | opened {attempt : Attempt} (attempting : retry.phase = .attempting attempt) :
      RetryMoves retry
        { retry with phase := .attempting { attempt with openedAt := some retry.clock } }
  | settled {attempt : Attempt} (attempting : retry.phase = .attempting attempt) :
      RetryMoves retry
        { retry with
          phase := .sleeping
          backoffMs := retry.delayAfter attempt
          pauses := retry.pauses ++ [⟨attempt, retry.clock, retry.delayAfter attempt⟩] }
  | woke (sleeping : retry.phase = .sleeping) :
      RetryMoves retry
        { retry with
          phase := .attempting ⟨retry.clock, none⟩
          backoffMs := nextBackoffMs retry.backoffMs }
  | ended (backoffMs : ℕ) : RetryMoves retry { retry with phase := .over, backoffMs := backoffMs }

structure Retry.Kept (retry : Retry) : Prop where
  attempting : ∀ attempt, retry.phase = .attempting attempt → attempt.Timed retry.clock
  pauses : ∀ pause ∈ retry.pauses, pause.attempt.Timed pause.endedAt
  delays : DelaysBy Pause.longAttempt retry.pauses
  due : retry.phase = .idle ∨ (∃ attempt, retry.phase = .attempting attempt) →
    retry.backoffMs = dueDelay retry.pauses
  slept : retry.phase = .sleeping → dueDelay retry.pauses = nextBackoffMs retry.backoffMs

theorem Retry.Kept.underway {retry : Retry} {attempt : Attempt} {backoffMs : ℕ}
    (h : retry.Kept) (htimed : attempt.Timed retry.clock)
    (hdue : backoffMs = dueDelay retry.pauses) :
    Retry.Kept { retry with phase := .attempting attempt, backoffMs := backoffMs } where
  attempting := by
    intro other hphase
    simp only [RetryPhase.attempting.injEq] at hphase
    subst hphase
    exact htimed
  pauses := h.pauses
  delays := h.delays
  due := fun _ => hdue
  slept := by simp

theorem Retry.Kept.of_moves {retry after : Retry} (h : retry.Kept)
    (hmoves : RetryMoves retry after) : after.Kept := by
  cases hmoves with
  | kept => exact h
  | ticked nanos =>
      exact
        { attempting := fun attempt hphase => (h.attempting attempt hphase).later (by simp)
          pauses := h.pauses
          delays := h.delays
          due := h.due
          slept := h.slept }
  | began hidle =>
      exact h.underway ⟨le_refl _, by simp⟩ (h.due (.inl hidle))
  | @opened attempt hattempting =>
      have htimed := h.attempting attempt hattempting
      exact h.underway ⟨htimed.started, by simpa using htimed.started⟩
        (h.due (.inr ⟨attempt, hattempting⟩))
  | @settled attempt hattempting =>
      have htimed := h.attempting attempt hattempting
      have hdue := h.due (.inr ⟨attempt, hattempting⟩)
      refine
        { attempting := by simp
          pauses := ?_
          delays := h.delays.snoc ?_
          due := by simp
          slept := fun _ => dueDelay_append _ _ }
      · intro pause hpause
        rcases List.mem_append.mp hpause with hearlier | hlast
        · exact h.pauses pause hearlier
        · rw [List.mem_singleton.mp hlast]
          exact htimed
      · simp only [Retry.delayAfter, Pause.longAttempt, decide_eq_true_eq, hdue]
  | woke hsleeping =>
      exact h.underway ⟨le_refl _, by simp⟩ (h.slept hsleeping).symm
  | ended backoffMs =>
      exact
        { attempting := by simp
          pauses := h.pauses
          delays := h.delays
          due := by simp
          slept := by simp }

/-! ## The loop refines the machine -/

def LoopPhase.retry : LoopPhase → RetryPhase
  | unstarted => .idle
  | connecting attempt => .attempting attempt
  | readingToken attempt _ => .attempting attempt
  | registering attempt _ => .attempting attempt
  | receiving attempt _ => .attempting attempt
  | leaving _ _ .cancelled => .over
  | leaving attempt _ .returned => .attempting attempt
  | leaving attempt _ .raised => .attempting attempt
  | sleeping => .sleeping
  | ended => .over
  | cancelled => .over

def System.retry (system : System) : Retry where
  phase := system.loop.retry
  backoffMs := system.client.backoffMs
  clock := system.clock
  pauses := system.pauses

theorem LoopPhase.retry_leaving (attempt : Attempt) (conn : ℕ) {departure : Departure}
    (hother : departure ≠ .cancelled) :
    (LoopPhase.leaving attempt conn departure).retry = .attempting attempt := by
  cases departure with
  | cancelled => contradiction
  | _ => rfl

section Steps

variable {config : GatewayConfig} {system after : System} {action : Action}

theorem RetryMoves.of_same (hretry : after.retry = system.retry) :
    RetryMoves system.retry after.retry := by
  rw [hretry]
  exact .kept

theorem settleRound_retry {attempt : Attempt} (live : Option ℕ)
    (hattempting : system.loop.retry = .attempting attempt) :
    RetryMoves system.retry
      (System.settleRound { system with live := live } attempt).retry := by
  simp only [System.settleRound]
  split
  · exact .ended system.client.backoffMs
  · exact .settled hattempting

theorem receive_retry {attempt : Attempt} {conn : ℕ} {raw : String}
    (hloop : system.loop = .receiving attempt conn) :
    (system.receive config attempt conn raw).retry = system.retry := by
  have hclient := (dispatch_dispatched config raw ⟨system.client, [], []⟩).client
  have hphase : (system.receive config attempt conn raw).loop.retry = system.loop.retry := by
    simp only [System.receive]
    cases (dispatch config raw ⟨system.client, [], []⟩).1 <;> simp [hloop, LoopPhase.retry]
  simp only [System.retry, hphase]
  simp only [System.receive]
  rw [hclient]

theorem LoopStep.retry (hstep : LoopStep config system action after) :
    RetryMoves system.retry after.retry := by
  cases hstep with
  | starts hloop => exact .began (by simp [System.retry, hloop, LoopPhase.retry])
  | connects hloop => exact .opened (by simp [System.retry, hloop, LoopPhase.retry])
  | fails hloop => exact settleRound_retry system.live (by simp [hloop, LoopPhase.retry])
  | registers hloop | awaits hloop =>
      apply RetryMoves.of_same
      simp [System.retry, hloop, LoopPhase.retry]
  | receives hloop => exact .of_same (receive_retry hloop)
  | @departs _ attempt conn _ _ hinside hother =>
      apply RetryMoves.of_same
      simp only [System.retry, LoopPhase.retry_leaving attempt conn hother]
      rcases hinside with hloop | hloop | hloop <;> simp [hloop, LoopPhase.retry]
  | unwinds hloop => exact .ended system.client.backoffMs
  | @leaves attempt conn _ hloop hother =>
      apply settleRound_retry none
      rw [hloop, LoopPhase.retry_leaving attempt conn hother]
  | wakes hloop hnext =>
      rcases hnext with rfl | rfl
      · exact .ended (nextBackoffMs system.client.backoffMs)
      · exact .woke (by simp [System.retry, hloop, LoopPhase.retry])

theorem stepCancelLoop_retry (hstep : stepCancelLoop system = some after) :
    RetryMoves system.retry after.retry := by
  unfold stepCancelLoop at hstep
  split at hstep <;> simp only [Option.some.injEq, reduceCtorEq] at hstep
  all_goals
    subst hstep
    exact .ended system.client.backoffMs

theorem resume_retry {index : ℕ} (hresumes : action.handler? = some index)
    (hstep : step config system action = some after) :
    RetryMoves system.retry after.retry := by
  cases step_moved hstep with
  | handler _ _ hmoved =>
      apply RetryMoves.of_same
      simp only [System.retry, hmoved.sameLoop.loop, hmoved.sameLoop.clock,
        hmoved.sameLoop.pauses]
      rw [hmoved.sameLoop.client]
  | loop hnone _ => simp [hresumes] at hnone

/-- Every step of the client is a move of its retry machine. -/
theorem step_retry (hstep : step config system action = some after) :
    RetryMoves system.retry after.retry := by
  cases action with
  | tick nanos =>
      simp only [step, Option.some.injEq] at hstep
      subst hstep
      exact .ticked nanos
  | drop =>
      simp only [step, Option.some.injEq] at hstep
      subst hstep
      exact .of_same rfl
  | stop =>
      simp only [step, Option.ite_none_left_eq_some] at hstep
      obtain ⟨_, hstep⟩ := hstep
      cases hsocket : system.client.socket <;>
        simp only [hsocket, Option.some.injEq] at hstep <;>
        subst hstep <;> exact .of_same rfl
  | closed =>
      simp only [step] at hstep
      split at hstep <;> simp only [Option.some.injEq, reduceCtorEq] at hstep
      subst hstep
      exact .of_same rfl
  | cancelLoop =>
      simp only [step, Option.ite_none_right_eq_some] at hstep
      exact stepCancelLoop_retry hstep.2
  | cancelHandler index => exact resume_retry rfl hstep
  | handlerBegins index => exact resume_retry rfl hstep
  | resolved index resolve => exact resume_retry rfl hstep
  | crawled index outcome => exact resume_retry rfl hstep
  | sent index raised => exact resume_retry rfl hstep
  | _ =>
      simp only [step, Action.handler?, Option.ite_none_left_eq_some] at hstep
      exact (loopStep_of_stepLoop hstep.2).retry

end Steps

/-! ## Whole runs -/

theorem retryKept_initial : System.initial.retry.Kept where
  attempting := by simp [System.initial, System.retry, LoopPhase.retry]
  pauses := by simp [System.initial, System.retry]
  delays := DelaysBy.nil _
  due := by simp [System.initial, System.retry, Client.initial]
  slept := by simp [System.initial, System.retry, LoopPhase.retry]

theorem retryKept_of_run {config : GatewayConfig} {trace : List Action} {system : System}
    (hrun : Run (step config) Always System.initial trace system) : system.retry.Kept := by
  apply hrun.invariant
  · exact retryKept_initial
  · intro before action after hkept _ hstep
    exact hkept.of_moves (step_retry hstep)

/-- The delays of a run obey the law exactly when every attempt after the first
that took at least the reset interval was an open connection for as long. -/
theorem backoff_law_iff (config : GatewayConfig) (trace : List Action) (system : System)
    (hrun : Run (step config) Always System.initial trace system) :
    BackoffLaw system.pauses ↔
      ∀ pause ∈ system.pauses.tail, pause.longAttempt = true → pause.stayedUp = true := by
  have hkept := retryKept_of_run hrun
  exact hkept.delays.law_iff hkept.pauses

def second : ℕ := 1000 * nanosPerMs

/-- Two attempts that fail at once and a connection of ten seconds. -/
def resetTrace : List Action :=
  [.start, .connectFailed, .tick second, .slept, .connectFailed, .tick (2 * second), .slept,
    .connected, .tick (10 * second), .tokenFailed, .left]

theorem backoff_law_iff_reset :
    ∃ system : System, system.pauses.map Pause.delayMs = [1000, 2000, 1000] ∧
      BackoffLaw system.pauses := by
  have hpauses : (exec (step exampleConfig) System.initial resetTrace).map System.pauses =
      some [⟨⟨0, none⟩, 0, 1000⟩, ⟨⟨second, none⟩, second, 2000⟩,
        ⟨⟨3 * second, some (3 * second)⟩, 13 * second, 1000⟩] := by
    decide +kernel
  obtain ⟨system, hexec, hsystem⟩ := Option.map_eq_some_iff.mp hpauses
  refine ⟨system, by rw [hsystem]; rfl, ?_⟩
  rw [backoff_law_iff exampleConfig resetTrace system (run_of_exec hexec), hsystem]
  decide +kernel

/-- The second attempt fails after ten seconds. -/
def slowFailureTrace : List Action :=
  [.start, .connectFailed, .tick second, .slept, .tick (10 * second), .connectFailed]

/-- No connection ever opened, and the second delay is the initial one again. -/
theorem slow_failure_resets_backoff :
    ∃ system, Run (step exampleConfig) Always System.initial slowFailureTrace system ∧
      (∀ pause ∈ system.pauses, pause.attempt.openedAt = none) ∧
      system.pauses.map Pause.delayMs = [1000, 1000] ∧ ¬BackoffLaw system.pauses := by
  have hpauses : (exec (step exampleConfig) System.initial slowFailureTrace).map
      System.pauses =
      some [⟨⟨0, none⟩, 0, 1000⟩, ⟨⟨second, none⟩, 11 * second, 1000⟩] := by
    decide +kernel
  obtain ⟨system, hexec, hsystem⟩ := Option.map_eq_some_iff.mp hpauses
  refine ⟨system, run_of_exec hexec, by simp [hsystem], by simp [hsystem], ?_⟩
  intro hlaw
  have hlast := hlaw.unopened [] [⟨⟨0, none⟩, 0, 1000⟩] ⟨⟨second, none⟩, 11 * second, 1000⟩ []
    hsystem (by simp)
  exact absurd hlast (by decide)

end MeerklyHeadless
