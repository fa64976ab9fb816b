import MeerklyHeadless.CrawlDeadline
import MeerklyHeadless.TransitionRuns
import Mathlib.Data.List.Chain
import Mathlib.Tactic

/-!
# The snippet that waits for a quiet document

`SETTLE_STABLE` runs in the page: an observer restarts one timer at each
change that it is told of, a second timer is started once, and whichever fires
first resolves the promise.  The page may change at any moment.  Timers are
never early; a page that is not held up fires them when they are due, and then
the promise is resolved at the first quiet window or at the cap.
-/

namespace MeerklyHeadless.SettleSnippet

open ExceptionState
open JsonSchema
open TransitionRuns

/-! ## The observer -/

inductive MutationKind
  | childList | characterData | attributes
  deriving DecidableEq, Repr

/-- A change of the observed element itself or of a node below it. -/
structure Mutation where
  kind : MutationKind
  below : Bool
  deriving DecidableEq, Repr

/-- What `MutationObserver.observe` is asked for. -/
structure ObserverInit where
  childList : Bool
  characterData : Bool
  attributes : Bool
  subtree : Bool

def ObserverInit.reports (init : ObserverInit) (mutation : Mutation) : Bool :=
  (init.subtree || !mutation.below) &&
    match mutation.kind with
    | .childList => init.childList
    | .characterData => init.characterData
    | .attributes => init.attributes

/-- Attributes are left out, so that animations do not hold up the settle. -/
def settleObserver : ObserverInit where
  childList := true
  characterData := true
  attributes := false
  subtree := true

/-! ## The script and its page -/

/-- `const QUIET = 500;` -/
def quietMs : ℕ := 500

def quietNanos : ℕ := quietMs * nanosPerMs

/-- The variables of the script, its timers with the times at which they are
due, and a record of all changes of the page. -/
structure Script where
  clock : ℕ
  observing : Bool
  quiet : Option ℕ
  capTimer : Option ℕ
  done : Bool
  resolved : Option ℕ
  history : List (ℕ × Mutation)

/-- The script up to its first wait; `observable` says whether `mo.observe`
returned, as what it raises is ignored. -/
def Script.begin (capNanos : ℕ) (observable : Bool) (clock : ℕ) : Script where
  clock := clock
  observing := observable
  quiet := some (clock + quietNanos)
  capTimer := some (clock + capNanos)
  done := false
  resolved := none
  history := []

def Script.finish (script : Script) : Script :=
  if script.done then script
  else { script with
    done := true
    observing := false
    quiet := none
    capTimer := none
    resolved := some script.clock }

/-- The callback of the observer, which runs before any timer does. -/
def Script.changed (script : Script) : Script :=
  { script with quiet := some (script.clock + quietNanos) }

inductive Action
  | elapse (nanos : ℕ)
  | mutate (mutation : Mutation)
  | quietFires
  | capFires

def step (script : Script) : Action → Option Script
  | .elapse nanos => some { script with clock := script.clock + nanos }
  | .mutate mutation =>
      let recorded := { script with history := script.history ++ [(script.clock, mutation)] }
      if script.observing && settleObserver.reports mutation then some recorded.changed
      else some recorded
  | .quietFires =>
      match script.quiet with
      | some due => if due ≤ script.clock then some { script with quiet := none }.finish else none
      | none => none
  | .capFires =>
      match script.capTimer with
      | some due =>
          if due ≤ script.clock then some { script with capTimer := none }.finish else none
      | none => none

/-- No time goes by over a timer that is due. -/
def promptly (script : Script) : Action → Bool
  | .elapse nanos =>
      script.quiet.all (script.clock + nanos ≤ ·) && script.capTimer.all (script.clock + nanos ≤ ·)
  | _ => true

def Prompt (script : Script) (action : Action) : Prop := promptly script action = true

/-! ## What it is for -/

/-- The times of the changes that count. -/
def relevant (observable : Bool) (history : List (ℕ × Mutation)) : List ℕ :=
  if observable then
    (history.filter fun change => settleObserver.reports change.2).map Prod.fst
  else []

def lastChange (start : ℕ) (changes : List ℕ) : ℕ := changes.getLast?.getD start

/-- No window has passed without a change yet. -/
def Lively (start : ℕ) (changes : List ℕ) : Prop :=
  List.IsChain (fun earlier later => later ≤ earlier + quietNanos) (start :: changes)

/-- With these changes the first window without one, or the limit, ends now. -/
structure SettledAt (start limit : ℕ) (changes : List ℕ) (time : ℕ) : Prop where
  lively : Lively start changes
  ends : time = min limit (lastChange start changes + quietNanos)

/-- By the changes before it, and no later than those after it. -/
def SettlesAt (start limit : ℕ) (observable : Bool) (history : List (ℕ × Mutation))
    (time : ℕ) : Prop :=
  ∃ before after, history = before ++ after ∧ (∀ change ∈ after, time ≤ change.1) ∧
    SettledAt start limit (relevant observable before) time

theorem relevant_concat (observable : Bool) (history : List (ℕ × Mutation)) (time : ℕ)
    (mutation : Mutation) :
    relevant observable (history ++ [(time, mutation)]) =
      if observable && settleObserver.reports mutation then relevant observable history ++ [time]
      else relevant observable history := by
  cases observable with
  | false => simp [relevant]
  | true =>
      by_cases hreports : settleObserver.reports mutation = true
      · simp [relevant, List.filter_append, hreports]
      · simp [relevant, List.filter_append, hreports]

theorem lastChange_concat (start : ℕ) (changes : List ℕ) (time : ℕ) :
    lastChange start (changes ++ [time]) = time := by
  simp [lastChange]

theorem Lively.concat {start : ℕ} {changes : List ℕ} {time : ℕ} (h : Lively start changes)
    (hsoon : time ≤ lastChange start changes + quietNanos) : Lively start (changes ++ [time]) := by
  unfold Lively at h ⊢
  rw [← List.cons_append, List.isChain_append]
  refine ⟨h, List.isChain_singleton _, ?_⟩
  intro earlier hearlier later hlater
  obtain rfl : time = later := by simpa using hlater
  obtain rfl : lastChange start changes = earlier := by
    rw [List.getLast?_cons] at hearlier
    simpa [lastChange] using hearlier
  exact hsoon

/-! ## What holds of every run -/

/-- The window after the last change, or the limit, whichever is over first. -/
def dueAt (start limit : ℕ) (changes : List ℕ) : ℕ :=
  min limit (lastChange start changes + quietNanos)

/-- The promise is pending; `onTime` is that timers were not late so far. -/
structure Waiting (onTime : Prop) (start limit : ℕ) (observable : Bool) (script : Script) :
    Prop where
  done : script.done = false
  resolved : script.resolved = none
  observing : script.observing = observable
  quiet : script.quiet = some (lastChange start (relevant observable script.history) + quietNanos)
  capTimer : script.capTimer = some limit
  lively : onTime → Lively start (relevant observable script.history)
  clock : onTime → script.clock ≤ dueAt start limit (relevant observable script.history)

/-- The promise was resolved at this time, between these changes and those. -/
structure Ended (onTime : Prop) (start limit : ℕ) (observable : Bool) (script : Script)
    (time : ℕ) (before after : List (ℕ × Mutation)) : Prop where
  done : script.done = true
  resolved : script.resolved = some time
  observing : script.observing = false
  quiet : script.quiet = none
  capTimer : script.capTimer = none
  past : time ≤ script.clock
  history : script.history = before ++ after
  later : ∀ change ∈ after, time ≤ change.1
  notEarly : dueAt start limit (relevant observable before) ≤ time
  settled : onTime → SettledAt start limit (relevant observable before) time

def Kept (onTime : Prop) (start limit : ℕ) (observable : Bool) (script : Script) : Prop :=
  Waiting onTime start limit observable script ∨
    ∃ time before after, Ended onTime start limit observable script time before after

section Runs

variable {onTime : Prop} {start limit capNanos : ℕ} {observable : Bool} {script next : Script}

theorem Kept.initial : Kept onTime start (start + capNanos) observable
    (.begin capNanos observable start) := by
  have hnone : relevant observable [] = [] := by simp [relevant]
  left
  exact
    { done := rfl
      resolved := rfl
      observing := rfl
      quiet := by simp [Script.begin, hnone, lastChange]
      capTimer := rfl
      lively := fun _ => by simp [Script.begin, hnone, Lively]
      clock := fun _ => by simp [Script.begin, hnone, dueAt, lastChange] }

theorem Waiting.fires (h : Waiting onTime start limit observable script) {due : ℕ}
    (hdue : due ≤ script.clock)
    (hnotEarly : dueAt start limit (relevant observable script.history) ≤ due)
    {fired : Script} (hclock : fired.clock = script.clock) (hdone : fired.done = script.done)
    (hhistory : fired.history = script.history) :
    Ended onTime start limit observable fired.finish script.clock script.history [] := by
  have hfinish : fired.finish = { fired with
      done := true
      observing := false
      quiet := none
      capTimer := none
      resolved := some fired.clock } := by
    rw [Script.finish, hdone, h.done]
    rfl
  rw [hfinish]
  exact
    { done := rfl
      resolved := by rw [hclock]
      observing := rfl
      quiet := rfl
      capTimer := rfl
      past := hclock.ge
      history := by simp [hhistory]
      later := by simp
      notEarly := hnotEarly.trans hdue
      settled := fun honTime =>
        ⟨h.lively honTime, le_antisymm (h.clock honTime) (hnotEarly.trans hdue)⟩ }

theorem Waiting.step (h : Waiting onTime start limit observable script) {action : Action}
    (hprompt : onTime → Prompt script action)
    (hstep : SettleSnippet.step script action = some next) :
    Kept onTime start limit observable next := by
  cases action with
  | elapse nanos =>
      simp only [SettleSnippet.step, Option.some.injEq] at hstep
      subst hstep
      left
      refine { h with clock := ?_ }
      intro honTime
      have hdue := hprompt honTime
      simp only [Prompt, promptly, h.quiet, h.capTimer, Option.all_some, Bool.and_eq_true,
        decide_eq_true_eq] at hdue
      exact le_min hdue.2 hdue.1
  | mutate mutation =>
      left
      simp only [SettleSnippet.step, h.observing] at hstep
      split at hstep
      · rename_i hseen
        simp only [Option.some.injEq] at hstep
        subst hstep
        have hrelevant : relevant observable (script.history ++ [(script.clock, mutation)]) =
            relevant observable script.history ++ [script.clock] := by
          rw [relevant_concat, if_pos hseen]
        exact
          { done := h.done
            resolved := h.resolved
            observing := rfl
            quiet := by simp [Script.changed, hrelevant, lastChange_concat]
            capTimer := h.capTimer
            lively := fun honTime => by
              rw [Script.changed, hrelevant]
              exact (h.lively honTime).concat ((h.clock honTime).trans (min_le_right _ _))
            clock := fun honTime => by
              rw [Script.changed, hrelevant, dueAt, lastChange_concat]
              exact le_min ((h.clock honTime).trans (min_le_left _ _)) (Nat.le_add_right _ _) }
      · rename_i hunseen
        simp only [Option.some.injEq] at hstep
        subst hstep
        have hrelevant : relevant observable (script.history ++ [(script.clock, mutation)]) =
            relevant observable script.history := by
          rw [relevant_concat, if_neg hunseen]
        exact
          { done := h.done
            resolved := h.resolved
            observing := rfl
            quiet := by simp [hrelevant, h.quiet]
            capTimer := h.capTimer
            lively := by simpa only [hrelevant] using h.lively
            clock := by simpa only [hrelevant] using h.clock }
  | quietFires =>
      right
      simp only [SettleSnippet.step, h.quiet] at hstep
      split at hstep
      · rename_i hdue
        simp only [Option.some.injEq] at hstep
        subst hstep
        exact ⟨_, _, _, h.fires hdue (min_le_right _ _) rfl rfl rfl⟩
      · cases hstep
  | capFires =>
      right
      simp only [SettleSnippet.step, h.capTimer] at hstep
      split at hstep
      · rename_i hdue
        simp only [Option.some.injEq] at hstep
        subst hstep
        exact ⟨_, _, _, h.fires hdue (min_le_left _ _) rfl rfl rfl⟩
      · cases hstep

theorem Ended.step {time : ℕ} {before after : List (ℕ × Mutation)}
    (h : Ended onTime start limit observable script time before after) {action : Action}
    (hstep : SettleSnippet.step script action = some next) :
    ∃ more, Ended onTime start limit observable next time before (after ++ more) := by
  cases action with
  | elapse nanos =>
      simp only [SettleSnippet.step, Option.some.injEq] at hstep
      subst hstep
      refine ⟨[], ?_⟩
      rw [List.append_nil]
      exact { h with past := h.past.trans (Nat.le_add_right _ _) }
  | mutate mutation =>
      simp only [SettleSnippet.step, h.observing, Bool.false_and, Bool.false_eq_true, if_false,
        Option.some.injEq] at hstep
      subst hstep
      refine ⟨[(script.clock, mutation)], ?_⟩
      exact { h with
        observing := rfl
        history := by rw [h.history, List.append_assoc]
        later := by
          intro change hchange
          rcases List.mem_append.mp hchange with hold | hnew
          · exact h.later change hold
          · rw [List.mem_singleton.mp hnew]
            exact h.past }
  | quietFires => simp [SettleSnippet.step, h.quiet] at hstep
  | capFires => simp [SettleSnippet.step, h.capTimer] at hstep

theorem Ended.settlesAt {time : ℕ} {before after : List (ℕ × Mutation)}
    (h : Ended onTime start limit observable script time before after) (honTime : onTime) :
    SettlesAt start limit observable script.history time :=
  ⟨before, after, h.history, h.later, h.settled honTime⟩

theorem Kept.step (h : Kept onTime start limit observable script) {action : Action}
    (hprompt : onTime → Prompt script action)
    (hstep : SettleSnippet.step script action = some next) :
    Kept onTime start limit observable next := by
  rcases h with hwaiting | ⟨time, before, after, hended⟩
  · exact hwaiting.step hprompt hstep
  · obtain ⟨more, hafter⟩ := hended.step hstep
    exact .inr ⟨time, before, after ++ more, hafter⟩

theorem kept_of_run {trace : List Action}
    (hrun : Run SettleSnippet.step Prompt (.begin capNanos observable start) trace script) :
    Kept True start (start + capNanos) observable script :=
  hrun.invariant .initial fun _ _ _ h hprompt hnext => h.step (fun _ => hprompt) hnext

end Runs

/-- A node is added after 300 ms and a class changes after 700 ms: the quiet
window ends 500 ms after the first of these, before the cap. -/
def animatedTrace : List Action :=
  [.elapse (300 * nanosPerMs), .mutate ⟨.childList, true⟩, .elapse (400 * nanosPerMs),
    .mutate ⟨.attributes, true⟩, .elapse (100 * nanosPerMs), .quietFires]

def animatedScript : Script where
  clock := 800 * nanosPerMs
  observing := false
  quiet := none
  capTimer := none
  done := true
  resolved := some (800 * nanosPerMs)
  history := [(300 * nanosPerMs, ⟨.childList, true⟩), (700 * nanosPerMs, ⟨.attributes, true⟩)]

theorem exec_animatedTrace :
    exec (guarded promptly SettleSnippet.step) (.begin (5000 * nanosPerMs) true 0) animatedTrace =
      some animatedScript := rfl

theorem run_animatedTrace : Run SettleSnippet.step Prompt (.begin (5000 * nanosPerMs) true 0)
    animatedTrace animatedScript :=
  run_of_exec_guarded exec_animatedTrace

/-- Late timers resolve the promise late, and never before a whole window has
passed without a change or the cap is reached. -/
theorem settleStable_never_early (capNanos : ℕ) (observable : Bool) (start : ℕ)
    (trace : List Action) (script : Script)
    (hrun : Run SettleSnippet.step Always (.begin capNanos observable start) trace script)
    (time : ℕ) (hresolved : script.resolved = some time) :
    ∃ before after, script.history = before ++ after ∧ (∀ change ∈ after, time ≤ change.1) ∧
      dueAt start (start + capNanos) (relevant observable before) ≤ time := by
  have hkept : Kept False start (start + capNanos) observable script :=
    hrun.invariant .initial fun _ _ _ h _ hnext => h.step False.elim hnext
  rcases hkept with hwaiting | ⟨ended, before, after, hended⟩
  · rw [hwaiting.resolved] at hresolved
    cases hresolved
  · rw [hended.resolved, Option.some.injEq] at hresolved
    subst hresolved
    exact ⟨before, after, hended.history, hended.later, hended.notEarly⟩

theorem settleStable_never_early_animated : ∃ before after,
    animatedScript.history = before ++ after ∧
      (∀ change ∈ after, 800 * nanosPerMs ≤ change.1) ∧
      dueAt 0 (0 + 5000 * nanosPerMs) (relevant true before) ≤ 800 * nanosPerMs :=
  settleStable_never_early (5000 * nanosPerMs) true 0 animatedTrace animatedScript
    (run_animatedTrace.weaken fun _ _ _ => trivial) (800 * nanosPerMs) rfl

/-- When no timer is late, the promise is resolved exactly when the first
window without a change ends or the cap is reached, by the changes before that
moment; until then no such moment has passed. -/
theorem settleStable_settles (capNanos : ℕ) (observable : Bool) (start : ℕ)
    (trace : List Action) (script : Script)
    (hrun : Run SettleSnippet.step Prompt (.begin capNanos observable start) trace script) :
    (∃ time, script.resolved = some time ∧
        SettlesAt start (start + capNanos) observable script.history time) ∨
      script.resolved = none ∧ Lively start (relevant observable script.history) ∧
        script.clock ≤ dueAt start (start + capNanos) (relevant observable script.history) := by
  rcases kept_of_run hrun with hwaiting | ⟨time, before, after, hended⟩
  · exact .inr ⟨hwaiting.resolved, hwaiting.lively trivial, hwaiting.clock trivial⟩
  · exact .inl ⟨time, hended.resolved, hended.settlesAt trivial⟩

theorem settleStable_settles_animated :
    (∃ time, animatedScript.resolved = some time ∧
        SettlesAt 0 (0 + 5000 * nanosPerMs) true animatedScript.history time) ∨
      animatedScript.resolved = none ∧ Lively 0 (relevant true animatedScript.history) ∧
        animatedScript.clock ≤
          dueAt 0 (0 + 5000 * nanosPerMs) (relevant true animatedScript.history) :=
  settleStable_settles (5000 * nanosPerMs) true 0 animatedTrace animatedScript run_animatedTrace

/-! ## A settle on such a page -/

variable {W : Type}

/-- `evaluate` runs the snippet on a page whose timers are never late, and is
back when the promise is resolved, unless `wait_for` has given up before. -/
def RunsSnippet (engine : Engine W) (observable : W → Bool)
    (history : W → List (ℕ × Mutation)) : Prop :=
  ∀ world capMs deadlineMs, ∃ trace script time,
    Run SettleSnippet.step Prompt
        (.begin (capMs * nanosPerMs) (observable world) (engine.now world)) trace script ∧
      script.history = history world ∧ script.resolved = some time ∧
      (time ≤ engine.now world + deadlineMs * nanosPerMs →
        (engine.await (.evaluate .settleStable capMs deadlineMs) world).outcome = .ok .null ∧
          engine.now (engine.await (.evaluate .settleStable capMs deadlineMs) world).world = time)

theorem perform_keeps (engine : Engine W) (call : EngineCall) (state : CrawlState W) :
    (perform engine call state).2.calls = state.calls ++ [call] ∧
      (perform engine call state).2.world = (engine.await call state.world).world :=
  deliver_keeps _ _

theorem settle_of_returned {engine : Engine W} {settleMs budgetMs : ℕ} {state : CrawlState W}
    {value : Json}
    (h : (engine.await (.evaluate .settleStable (effectiveSettleCap settleMs budgetMs)
      (effectiveSettleCap settleMs budgetMs + 1000)) state.world).outcome = .ok value) :
    ∃ after, settle engine settleMs budgetMs state = (.ok (), after) ∧
      after.lastExecError = none ∧
      after.calls = state.calls ++ [.evaluate .settleStable (effectiveSettleCap settleMs budgetMs)
        (effectiveSettleCap settleMs budgetMs + 1000)] ∧
      after.world = (engine.await (.evaluate .settleStable (effectiveSettleCap settleMs budgetMs)
        (effectiveSettleCap settleMs budgetMs + 1000)) state.world).world := by
  have hkeeps := perform_keeps engine (.evaluate .settleStable
    (effectiveSettleCap settleMs budgetMs) (effectiveSettleCap settleMs budgetMs + 1000)) state
  rcases hrun : perform engine (.evaluate .settleStable (effectiveSettleCap settleMs budgetMs)
    (effectiveSettleCap settleMs budgetMs + 1000)) state with ⟨outcome, last⟩
  have hok : outcome = .ok value := by
    have hfirst := congrArg Prod.fst hrun
    exact hfirst.symm.trans h
  rw [hrun] at hkeeps
  refine ⟨{ last with lastExecError := none }, ?_, rfl, hkeeps.1, hkeeps.2⟩
  rw [settle, execJs, Prog.bind_apply, Prog.attempt_bind, hrun, hok]
  rfl

/-- On such a page the cap timer wins over `wait_for`: the settle makes one
call, which does not fail, and returns at the first quiet window or at the cap. -/
theorem settle_on_prompt_page (engine : Engine W) {observable : W → Bool}
    {history : W → List (ℕ × Mutation)} (hruns : RunsSnippet engine observable history)
    (settleMs budgetMs : ℕ) (state : CrawlState W) :
    ∃ after, settle engine settleMs budgetMs state = (.ok (), after) ∧
      after.lastExecError = none ∧
      after.calls = state.calls ++ [.evaluate .settleStable (effectiveSettleCap settleMs budgetMs)
        (effectiveSettleCap settleMs budgetMs + 1000)] ∧
      SettlesAt (engine.now state.world)
        (engine.now state.world + effectiveSettleCap settleMs budgetMs * nanosPerMs)
        (observable state.world) (history state.world) (engine.now after.world) := by
  obtain ⟨trace, script, time, hrun, hhistory, hresolved, hback⟩ := hruns state.world
    (effectiveSettleCap settleMs budgetMs) (effectiveSettleCap settleMs budgetMs + 1000)
  have hsettles : SettlesAt (engine.now state.world)
      (engine.now state.world + effectiveSettleCap settleMs budgetMs * nanosPerMs)
      (observable state.world) (history state.world) time := by
    rcases kept_of_run hrun with hwaiting | ⟨other, before, after, hended⟩
    · rw [hwaiting.resolved] at hresolved
      cases hresolved
    · rw [hended.resolved, Option.some.injEq] at hresolved
      subst hresolved
      rw [← hhistory]
      exact hended.settlesAt trivial
  have hcap : time ≤ engine.now state.world +
      (effectiveSettleCap settleMs budgetMs + 1000) * nanosPerMs := by
    obtain ⟨before, after, -, -, hsettled⟩ := hsettles
    rw [hsettled.ends, Nat.add_mul]
    exact (min_le_left _ _).trans (by omega)
  obtain ⟨houtcome, hnow⟩ := hback hcap
  obtain ⟨after, hsettle, herror, hcalls, hworld⟩ := settle_of_returned houtcome
  refine ⟨after, hsettle, herror, hcalls, ?_⟩
  rw [hworld, hnow]
  exact hsettles

/-- Its world is the clock, and its page never changes. -/
def stillEngine : Engine ℕ where
  now clock := clock
  await call clock :=
    match call with
    | .evaluate _ argument _ => ⟨.ok .null, [], clock + min (argument * nanosPerMs) quietNanos⟩
    | _ => ⟨.error ⟨.engineError, "not scripted"⟩, [], clock⟩
  sleep := clockSleep
  url _ := .ok "https://example.com/"
  digest text := text.length
  tables := asciiTables
  now_await call clock := by
    cases call with
    | evaluate snippet argument deadlineMs => exact Nat.le_add_right _ _
    | _ => exact le_refl _
  now_sleep := clockSleep_lasts

/-- How the script ends on a page that never changes. -/
def resolvedScript (time : ℕ) : Script where
  clock := time
  observing := false
  quiet := none
  capTimer := none
  done := true
  resolved := some time
  history := []

theorem run_capFires {capNanos : ℕ} (clock : ℕ) (hcap : capNanos ≤ quietNanos) :
    Run SettleSnippet.step Prompt (.begin capNanos true clock) [.elapse capNanos, .capFires]
      (resolvedScript (clock + capNanos)) := by
  have hexec : exec (guarded promptly SettleSnippet.step) (.begin capNanos true clock)
      [.elapse capNanos, .capFires] = some (resolvedScript (clock + capNanos)) := by
    simp [exec, guarded, promptly, SettleSnippet.step, Script.begin, Script.finish,
      resolvedScript, hcap]
  exact run_of_exec_guarded hexec

theorem run_quietFires {capNanos quiet : ℕ} (clock : ℕ) (hlength : quietNanos = quiet)
    (hquiet : quiet ≤ capNanos) :
    Run SettleSnippet.step Prompt (.begin capNanos true clock) [.elapse quiet, .quietFires]
      (resolvedScript (clock + quiet)) := by
  have hexec : exec (guarded promptly SettleSnippet.step) (.begin capNanos true clock)
      [.elapse quiet, .quietFires] = some (resolvedScript (clock + quiet)) := by
    simp [exec, guarded, promptly, SettleSnippet.step, Script.begin, Script.finish,
      resolvedScript, hlength, hquiet]
  exact run_of_exec_guarded hexec

theorem runsSnippet_stillEngine :
    RunsSnippet stillEngine (fun _ => true) (fun _ => []) := by
  intro clock capMs deadlineMs
  rcases le_total (capMs * nanosPerMs) quietNanos with hcap | hquiet
  · refine ⟨_, _, _, run_capFires clock hcap, rfl, rfl, ?_⟩
    intro _
    exact ⟨rfl, by simp [stillEngine, hcap]⟩
  · refine ⟨_, _, _, run_quietFires clock rfl hquiet, rfl, rfl, ?_⟩
    intro _
    exact ⟨rfl, by simp [stillEngine, hquiet]⟩

theorem settle_on_prompt_page_still :
    ∃ after, settle stillEngine 0 30000 (.initial 0) = (.ok (), after) ∧
      after.lastExecError = none ∧
      after.calls = (CrawlState.initial 0).calls ++
        [.evaluate .settleStable (effectiveSettleCap 0 30000) (effectiveSettleCap 0 30000 + 1000)] ∧
      SettlesAt (stillEngine.now 0)
        (stillEngine.now 0 + effectiveSettleCap 0 30000 * nanosPerMs) true []
        (stillEngine.now after.world) :=
  settle_on_prompt_page stillEngine runsSnippet_stillEngine 0 30000 (.initial 0)

end MeerklyHeadless.SettleSnippet
