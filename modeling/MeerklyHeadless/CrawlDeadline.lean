import MeerklyHeadless.DocumentPolls
import MeerklyHeadless.JobIsolation
import MeerklyHeadless.Overruns
import Mathlib.Tactic

/-!
# When a crawl returns

Every stage of a crawl is given what is left of one budget, but some look at
the clock only afterwards, and some calls have no timeout at all.  The engine
is taken to keep the timeouts it is given and to answer every other call after
a lag at most; then the crawl is back a bounded time after the budget's end,
which depends on whether a page can make it poll.
-/

namespace MeerklyHeadless

open ExceptionState
open JsonSchema
open Overruns

variable {W : Type}

/-! ## An engine that answers in time -/

/-- What `asyncio.wait_for` is told for this call. -/
def EngineCall.cutoff? : EngineCall → Option ℕ
  | content deadlineMs => some deadlineMs
  | evaluate _ _ deadlineMs => some deadlineMs
  | _ => none

/-- A wait with a timeout ends by it, `wait_for` cuts its call off in time, a
sleep lasts as long as asked, and every other call on the page ends after
`lag` at most.  Nothing is said of a wait whose timeout is zero, nor of the
launch. -/
structure Timely (engine : Engine W) (lag : ℕ) : Prop where
  waits : ∀ call world, ∀ timeoutMs ∈ call.waitTimeout?, 0 < timeoutMs →
    engine.now (engine.await call world).world ≤ engine.now world + timeoutMs * nanosPerMs
  cuts : ∀ call world, ∀ deadlineMs ∈ call.cutoff?,
    engine.now (engine.await call world).world ≤ engine.now world + deadlineMs * nanosPerMs
  others : ∀ call world, call.waitTimeout? = none → call.cutoff? = none → call ≠ .ensureBrowser →
    engine.now (engine.await call world).world ≤ engine.now world + lag
  sleeps : Punctual engine

/-- An `evaluate` that the page's policy forbids fails at once. -/
def BlocksAtOnce (engine : Engine W) (lag : ℕ) : Prop :=
  ∀ snippet argument deadlineMs world err,
    (engine.await (.evaluate snippet argument deadlineMs) world).outcome = .error err →
      isCspBlocked engine.tables (keptText deadlineMs err) = true →
        engine.now (engine.await (.evaluate snippet argument deadlineMs) world).world ≤
          engine.now world + lag

/-- No page forbids `evaluate`. -/
def AllowsEval (engine : Engine W) : Prop :=
  ∀ snippet argument deadlineMs world err,
    (engine.await (.evaluate snippet argument deadlineMs) world).outcome = .error err →
      isCspBlocked engine.tables (keptText deadlineMs err) = false

def budgetEnd (started : ℕ) : ℕ := started + navigationTimeoutMs * nanosPerMs

theorem remainingAt_within {started now : ℕ} :
    now + remainingAt started now * nanosPerMs ≤ max now (budgetEnd started) := by
  have hle : remainingAt started now * nanosPerMs ≤ budgetEnd started - now :=
    Nat.div_mul_le_self _ _
  omega

def pageTime (engine : Engine W) (state : CrawlState W) : ℕ := engine.now state.world

/-- The bound of `Overruns` for a crawl. -/
abbrev EndsBy (engine : Engine W) (good : CrawlState W → Prop) (deadline spend late : ℕ) :
    CrawlState W → CrawlState W → Prop :=
  Within (pageTime engine) good deadline spend late

/-! ## Waits without a timeout -/

/-- A wait whose timeout is zero, which stands for none, ends after `stall`. -/
def UntimedEnd (engine : Engine W) (stall : ℕ) : Prop :=
  ∀ (call : EngineCall) (world : W), call.waitTimeout? = some 0 →
    engine.now (engine.await call world).world ≤ engine.now world + stall

/-- In the runs that end well, no wait without a timeout takes longer than `stall`. -/
structure Stalls (engine : Engine W) (good : CrawlState W → Prop) (stall : ℕ) : Prop where
  same : ∀ {before after : CrawlState W}, after.calls = before.calls → good after → good before
  call : ∀ call state, good (perform engine call state).2 → good state ∧
    (call.waitTimeout? = some 0 →
      engine.now (engine.await call state.world).world ≤ engine.now state.world + stall)

/-- Where every wait has a timeout there is none without. -/
theorem stalls_of_waitsBounded (engine : Engine W) : Stalls engine WaitsBounded 0 where
  same hcalls hbounded := by
    unfold WaitsBounded at hbounded ⊢
    rwa [hcalls] at hbounded
  call call state hbounded := by
    obtain ⟨hbefore, htimeouts⟩ := (perform_spends engine call state).waits.mp hbounded
    refine ⟨hbefore, fun hzero => ?_⟩
    have hpositive := (htimeouts 0 hzero).1
    omega

theorem stalls_of_untimedEnd {engine : Engine W} {stall : ℕ} (h : UntimedEnd engine stall) :
    Stalls engine (fun _ => True) stall where
  same _ _ := trivial
  call call state _ := ⟨trivial, h call state.world⟩

structure Timed (engine : Engine W) (lag : ℕ) (good : CrawlState W → Prop) (stall : ℕ) : Prop
    extends Timely engine lag where
  stalls : Stalls engine good stall

section Timed

variable {engine : Engine W} {good : CrawlState W → Prop} {lag stall deadline started : ℕ}
  {state : CrawlState W}

/-! ## Single calls -/

/-- No call was made and no time went by. -/
def Still (before after : CrawlState W) : Prop :=
  after.calls = before.calls ∧ after.world = before.world

theorem Still.refl (state : CrawlState W) : Still state state := ⟨rfl, rfl⟩

theorem Still.trans {first second third : CrawlState W} (hfirst : Still first second)
    (hsecond : Still second third) : Still first third :=
  ⟨hsecond.1.trans hfirst.1, hsecond.2.trans hfirst.2⟩

theorem endsBy_stop (state : CrawlState W) (spend late : ℕ) :
    EndsBy engine good deadline spend late state state :=
  Within.mono (Within.refl state) (Nat.zero_le _) (Nat.zero_le _)

theorem still_noteExecError (budgetMs : ℕ) (err : PyError) :
    Moves (Still (W := W)) (noteExecError budgetMs err) := by
  intro state
  unfold noteExecError
  split
  · exact ⟨rfl, rfl⟩
  · cases firstLine err.message <;> exact ⟨rfl, rfl⟩

theorem still_fail (started : ℕ) (error : String) (finalUrl : Option String) :
    Moves Still (fail engine started error finalUrl) :=
  fun _ => ⟨rfl, rfl⟩

theorem Timed.still (h : Timed engine lag good stall) {after : CrawlState W}
    (hstill : Still state after) : EndsBy engine good deadline 0 0 state after :=
  fun hgood => ⟨h.stalls.same hstill.1 hgood, by simp [pageTime, hstill.2]⟩

theorem endsBy_perform {call : EngineCall} {spend late : ℕ}
    (h : Timed engine lag good stall)
    (hends : (call.waitTimeout? = some 0 →
        engine.now (engine.await call state.world).world ≤ engine.now state.world + stall) →
      engine.now (engine.await call state.world).world ≤
        max (engine.now state.world + spend) (deadline + late)) :
    EndsBy engine good deadline spend late state
      (perform engine call state).2 := by
  intro hgood
  obtain ⟨hbefore, hstall⟩ := h.stalls.call call state hgood
  refine ⟨hbefore, ?_⟩
  have hworld : (perform engine call state).2.world =
      (engine.await call state.world).world := (deliver_keeps _ _).2
  rw [pageTime, hworld]
  exact hends hstall

theorem Timed.quick (h : Timed engine lag good stall) {call : EngineCall}
    (hwait : call.waitTimeout? = none) (hcut : call.cutoff? = none)
    (hlaunch : call ≠ .ensureBrowser) :
    EndsBy engine good deadline lag lag state (perform engine call state).2 := by
  apply endsBy_perform h
  intro _
  exact (h.others call _ hwait hcut hlaunch).trans (le_max_left _ _)

/-- A wait for what is left of the budget spends nothing, unless nothing is left. -/
theorem Timed.wait (h : Timed engine lag good stall) {call : EngineCall}
    (hcall : call.waitTimeout? = some (remainingAt started (engine.now state.world))) :
    EndsBy engine good (budgetEnd started) stall stall state (perform engine call state).2 := by
  apply endsBy_perform h
  intro hstall
  rcases Nat.eq_zero_or_pos (remainingAt started (engine.now state.world)) with hzero | hpositive
  · exact (hstall (hzero ▸ hcall)).trans (le_max_left _ _)
  · have hends := (h.waits call _ _ hcall hpositive).trans remainingAt_within
    omega

theorem Timed.wait_left (h : Timed engine lag good stall) {call : EngineCall}
    (hcall : call.waitTimeout? = some (remainingAt started (engine.now state.world)))
    (hleft : 0 < remainingAt started (engine.now state.world)) :
    EndsBy engine good (budgetEnd started) 0 0 state (perform engine call state).2 := by
  apply endsBy_perform h
  intro _
  exact (h.waits call _ _ hcall hleft).trans remainingAt_within

theorem Timed.cut (h : Timed engine lag good stall) {call : EngineCall} {deadlineMs : ℕ}
    (hcall : call.cutoff? = some deadlineMs) :
    EndsBy engine good deadline (deadlineMs * nanosPerMs) 0 state
      (perform engine call state).2 := by
  apply endsBy_perform h
  intro _
  exact (h.cuts call _ _ hcall).trans (le_max_left _ _)

theorem EndsBy.bind {α β : Type} {spend late allSpend allLate : ℕ} {first : Crawl W α}
    {next : α → Crawl W β} (hfirst : EndsBy engine good deadline spend late state (first state).2)
    (moreSpend moreLate : ℕ) (hspend : spend + moreSpend ≤ allSpend)
    (hlate : max (late + moreSpend) moreLate ≤ allLate)
    (hnext : ∀ value after,
      EndsBy engine good deadline moreSpend moreLate after (next value after).2) :
    EndsBy engine good deadline allSpend allLate state ((first >>= next) state).2 :=
  Within.mono (Within.bind hfirst fun value after _ => hnext value after) hspend hlate

theorem EndsBy.read {α β : Type} {spend late : ℕ} {view : CrawlState W → α}
    {next : α → Crawl W β}
    (h : EndsBy engine good deadline spend late state (next (view state) state).2) :
    EndsBy engine good deadline spend late state ((Prog.read view >>= next) state).2 := h

theorem EndsBy.seq {α β : Type} {late all : ℕ} {first : Crawl W α} {next : α → Crawl W β}
    (hfirst : EndsBy engine good deadline late late state (first state).2) (more : ℕ)
    (hall : late + more ≤ all)
    (hnext : ∀ value after, EndsBy engine good deadline more more after (next value after).2) :
    EndsBy engine good deadline all all state ((first >>= next) state).2 :=
  hfirst.bind more more hall (by omega) hnext

/-- What is done at once after a program does not change when it ends. -/
theorem Timed.andThen {α β : Type} {spend late : ℕ} {first : Crawl W α} {next : α → Crawl W β}
    (h : Timed engine lag good stall)
    (hfirst : EndsBy engine good deadline spend late state (first state).2)
    (hnext : ∀ value, Moves Still (next value)) :
    EndsBy engine good deadline spend late state ((first >>= next) state).2 :=
  hfirst.bind 0 0 (by omega) (by omega) fun value after => h.still (hnext value after)

theorem Timed.sleep (h : Timed engine lag good stall) (ms : ℕ) :
    EndsBy engine good deadline (ms * nanosPerMs) 0 state (sleepMs engine ms state).2 := by
  have hcalls : (sleepMs engine ms state).2.calls = state.calls := (deliver_keeps _ _).1
  intro hgood
  refine ⟨h.stalls.same hcalls hgood, ?_⟩
  rw [pageTime, world_sleepMs, h.sleeps]
  exact le_max_left _ _

/-! ## Reading the page -/

theorem Timed.pageContent (h : Timed engine lag good stall) (budgetMs : ℕ) :
    EndsBy engine good deadline ((budgetMs + 1000) * nanosPerMs) 0 state
      (pageContent engine budgetMs state).2 := by
  refine h.andThen (h.cut rfl) fun outcome => ?_
  cases outcome with
  | ok html => exact fun _ => ⟨rfl, rfl⟩
  | error err =>
      exact Moves.bind (R := Still) Still.trans (still_noteExecError _ _) fun _ _ => ⟨rfl, rfl⟩

/-- The document is read with a second more than what is left. -/
theorem Timed.pageContent_left (h : Timed engine lag good stall) :
    EndsBy engine good (budgetEnd started) (1000 * nanosPerMs) (1000 * nanosPerMs) state
      (MeerklyHeadless.pageContent engine (remainingAt started (engine.now state.world))
        state).2 := by
  have hleft := @remainingAt_within started (engine.now state.world)
  have hread : EndsBy engine good 0
      ((remainingAt started (engine.now state.world) + 1000) * nanosPerMs) 0 state _ :=
    h.pageContent _
  intro hbounded
  obtain ⟨hbefore, htime⟩ := hread hbounded
  refine ⟨hbefore, ?_⟩
  rw [Nat.add_mul] at htime
  unfold pageTime at htime ⊢
  omega

theorem execJs_world (engine : Engine W) (snippet : Snippet) (argument budgetMs : ℕ)
    (fallback : Json) (state : CrawlState W) :
    (execJs engine snippet argument budgetMs fallback state).2.world =
      (engine.await (.evaluate snippet argument (budgetMs + 1000)) state.world).world := by
  have hworld : (perform engine (.evaluate snippet argument (budgetMs + 1000)) state).2.world =
      (engine.await (.evaluate snippet argument (budgetMs + 1000)) state.world).world :=
    (deliver_keeps _ _).2
  rw [← hworld, execJs, Prog.attempt_bind]
  cases (perform engine (.evaluate snippet argument (budgetMs + 1000)) state).1 with
  | ok value => rfl
  | error err =>
      exact Prog.bind_keeps (P := fun last : CrawlState W => last.world = _)
        (still_noteExecError _ _ _).2 fun _ _ hlast => hlast

theorem noteExecError_kept {budgetMs : ℕ} {err : PyError} {last : CrawlState W}
    (h : noteExecError budgetMs err state = (.ok (), last)) :
    last.lastExecError = keptText (budgetMs + 1000) err := by
  unfold noteExecError at h
  unfold keptText
  split at h
  · rename_i htimeout
    cases h
    rw [if_pos htimeout]
  · rename_i htimeout
    rw [if_neg htimeout]
    cases hline : firstLine err.message with
    | error raised =>
        rw [hline] at h
        cases h
    | ok line =>
        rw [hline] at h
        cases h
        rfl

/-- When `exec_js` returns, it has noted the error that its call raised. -/
theorem execJs_kept {snippet : Snippet} {argument budgetMs : ℕ} {fallback value : Json}
    {last : CrawlState W}
    (h : execJs engine snippet argument budgetMs fallback state = (.ok value, last)) :
    last.lastExecError = none ∨ ∃ err,
      (engine.await (.evaluate snippet argument (budgetMs + 1000)) state.world).outcome =
          .error err ∧ last.lastExecError = keptText (budgetMs + 1000) err := by
  rw [execJs, Prog.attempt_bind] at h
  have houtcome : (perform engine (.evaluate snippet argument (budgetMs + 1000)) state).1 =
      (engine.await (.evaluate snippet argument (budgetMs + 1000)) state.world).outcome := rfl
  rw [houtcome] at h
  cases hraised :
      (engine.await (.evaluate snippet argument (budgetMs + 1000)) state.world).outcome with
  | ok answer =>
      rw [hraised] at h
      cases h
      exact .inl rfl
  | error err =>
      rw [hraised] at h
      obtain ⟨_, middle, hnoted, hend⟩ := Prog.bind_eq_ok h
      cases hend
      exact .inr ⟨err, rfl, noteExecError_kept hnoted⟩

/-! ## Settling -/

/-- The polling overruns its own deadline by the poll that is under way and one pause. -/
theorem Timed.pollDocument (h : Timed engine lag good stall) (fuel : ℕ) (previous : Option ℕ)
    (lastChange : ℕ) :
    EndsBy engine good deadline 0 ((6000 + stablePollMs) * nanosPerMs) state
      (pollDocument engine deadline fuel previous lastChange state).2 := by
  induction fuel generalizing previous lastChange state with
  | zero => exact endsBy_stop state _ _
  | succ fuel ih =>
      rw [MeerklyHeadless.pollDocument, currentTime, Prog.read_bind]
      split
      · exact endsBy_stop state _ _
      · rename_i hopen
        have hearly : pageTime engine state ≤ deadline := (not_le.mp hopen).le
        -- a poll that is not the last one is followed by a pause and the rest of the loop
        have hpause : ∀ after previous lastChange,
            EndsBy engine good deadline (stablePollMs * nanosPerMs)
              ((6000 + stablePollMs) * nanosPerMs) after
              ((sleepMs engine stablePollMs >>= fun _ =>
                MeerklyHeadless.pollDocument engine deadline fuel previous lastChange) after).2 :=
          fun after previous lastChange =>
            EndsBy.bind (h.sleep stablePollMs) 0 _ (by omega) (by omega) fun _ _ =>
              ih previous lastChange
        refine Within.mono (Within.early (EndsBy.bind (h.pageContent 5000)
          (stablePollMs * nanosPerMs) ((6000 + stablePollMs) * nanosPerMs) (le_refl _) (le_refl _)
            fun html after => ?_) hearly) (le_refl _) ?_
        · cases html with
          | none => exact endsBy_stop after _ _
          | some html =>
              refine EndsBy.read ?_
              split
              · exact hpause _ _ _
              · split
                · exact endsBy_stop after _ _
                · exact hpause _ _ _
        · rw [Nat.add_mul 6000]
          omega

/-- A settle which is given no more than what is left overruns the budget by `grace`. -/
def SettlesBy (engine : Engine W) (good : CrawlState W → Prop) (started grace : ℕ) : Prop :=
  ∀ settleMs budgetMs state, budgetMs ≤ remainingAt started (engine.now state.world) →
    EndsBy engine good (budgetEnd started) grace grace state
      (settle engine settleMs budgetMs state).2

theorem effectiveSettleCap_le (settleMs budgetMs : ℕ) :
    effectiveSettleCap settleMs budgetMs ≤ budgetMs := by
  unfold effectiveSettleCap
  omega

/-- The cap of a settle is within what is left. -/
theorem settleCap_within {settleMs budgetMs now : ℕ} (h : budgetMs ≤ remainingAt started now) :
    now + effectiveSettleCap settleMs budgetMs * nanosPerMs ≤ max now (budgetEnd started) := by
  have hcap := Nat.mul_le_mul_right nanosPerMs ((effectiveSettleCap_le settleMs budgetMs).trans h)
  have hleft := @remainingAt_within started now
  omega

theorem Timed.execJs (h : Timed engine lag good stall) (settleMs : ℕ) {budgetMs : ℕ}
    (fallback : Json) (hbudget : budgetMs ≤ remainingAt started (engine.now state.world)) :
    EndsBy engine good (budgetEnd started) (1000 * nanosPerMs) (1000 * nanosPerMs) state
      (MeerklyHeadless.execJs engine .settleStable (effectiveSettleCap settleMs budgetMs)
        (effectiveSettleCap settleMs budgetMs) fallback state).2 := by
  have hcap := @settleCap_within started settleMs budgetMs _ hbudget
  refine h.andThen (endsBy_perform h fun _ => ?_) fun outcome => ?_
  · have hcut := h.cuts _ state.world _ (rfl : (EngineCall.evaluate .settleStable
      (effectiveSettleCap settleMs budgetMs)
      (effectiveSettleCap settleMs budgetMs + 1000)).cutoff? = some _)
    rw [Nat.add_mul] at hcut
    omega
  · cases outcome with
    | ok value => exact fun _ => ⟨rfl, rfl⟩
    | error err =>
        exact Moves.bind (R := Still) Still.trans (still_noteExecError _ _) fun _ _ => ⟨rfl, rfl⟩

/-- Polling needs a policy that forbade the snippet. -/
theorem execJs_blocked {argument budgetMs : ℕ} {fallback value : Json} {last : CrawlState W}
    (h : MeerklyHeadless.execJs engine .settleStable argument budgetMs fallback state =
      (.ok value, last))
    (hblocked : isCspBlocked engine.tables last.lastExecError = true) :
    ∃ err, (engine.await (.evaluate .settleStable argument (budgetMs + 1000))
        state.world).outcome = .error err ∧
      isCspBlocked engine.tables (keptText (budgetMs + 1000) err) = true := by
  rcases execJs_kept h with hnone | ⟨err, hraised, hkept⟩
  · rw [hnone] at hblocked
    simp [isCspBlocked] at hblocked
  · rw [hkept] at hblocked
    exact ⟨err, hraised, hblocked⟩

theorem settle_of_execJs {settleMs budgetMs grace : ℕ}
    (hexec : EndsBy engine good deadline grace grace state
      (MeerklyHeadless.execJs engine .settleStable (effectiveSettleCap settleMs budgetMs)
        (effectiveSettleCap settleMs budgetMs) .null state).2)
    (hpolls : ∀ value after, MeerklyHeadless.execJs engine .settleStable
        (effectiveSettleCap settleMs budgetMs) (effectiveSettleCap settleMs budgetMs) .null state =
          (.ok value, after) →
      isCspBlocked engine.tables after.lastExecError = true →
        EndsBy engine good deadline grace grace state
          (settleByPolling engine (effectiveSettleCap settleMs budgetMs) after).2) :
    EndsBy engine good deadline grace grace state (settle engine settleMs budgetMs state).2 := by
  rw [settle, Prog.bind_apply]
  rcases hrun : MeerklyHeadless.execJs engine .settleStable (effectiveSettleCap settleMs budgetMs)
    (effectiveSettleCap settleMs budgetMs) .null state with ⟨outcome, after⟩
  rw [hrun] at hexec
  cases outcome with
  | error err => exact hexec
  | ok value =>
      change EndsBy engine good deadline _ _ state ((Prog.read _ >>= _) after).2
      rw [Prog.read_bind]
      split
      · rename_i hblocked
        exact hpolls value after hrun hblocked
      · exact hexec

theorem Timed.settle_alone (h : Timed engine lag good stall) (hallows : AllowsEval engine) :
    SettlesBy engine good started (1000 * nanosPerMs) := by
  intro settleMs budgetMs state hbudget
  refine settle_of_execJs (h.execJs settleMs .null hbudget) ?_
  intro value after hrun hblocked
  obtain ⟨err, hraised, hforbids⟩ := execJs_blocked hrun hblocked
  rw [hallows _ _ _ _ _ hraised] at hforbids
  cases hforbids

/-- The polling starts at once, and its last poll may take six seconds. -/
theorem Timed.settle_polls (h : Timed engine lag good stall) (hblocks : BlocksAtOnce engine lag) :
    SettlesBy engine good started ((6000 + stablePollMs) * nanosPerMs + lag) := by
  intro settleMs budgetMs state hbudget
  have hexec := h.execJs settleMs .null hbudget
  refine settle_of_execJs (hexec.mono ?_ ?_) ?_
  · rw [Nat.add_mul]
    omega
  · rw [Nat.add_mul]
    omega
  · intro value after hrun hblocked
    obtain ⟨err, hraised, hforbids⟩ := execJs_blocked hrun hblocked
    have hworld := execJs_world engine .settleStable (effectiveSettleCap settleMs budgetMs)
      (effectiveSettleCap settleMs budgetMs) .null state
    rw [hrun] at hexec hworld
    have hsoon : pageTime engine after ≤ pageTime engine state + lag := by
      rw [pageTime, hworld]
      exact hblocks _ _ _ _ _ hraised hforbids
    have hcap := @settleCap_within started settleMs budgetMs _ hbudget
    have hstart : EndsBy engine good
        (pageTime engine after + effectiveSettleCap settleMs budgetMs * nanosPerMs) lag 0
        state after :=
      fun hbounded => ⟨(hexec hbounded).1, hsoon.trans (le_max_left _ _)⟩
    have hinner : pageTime engine after + effectiveSettleCap settleMs budgetMs * nanosPerMs ≤
        max (pageTime engine state) (budgetEnd started) + lag := by
      unfold pageTime at hsoon ⊢
      omega
    rw [settleByPolling, currentTime, Prog.read_bind]
    exact (Within.of_inner (hstart.trans (h.pollDocument _ _ _)) hinner).mono (by omega) (by omega)

/-! ## The stages of a crawl -/

theorem Timed.drainErrorPage (h : Timed engine lag good stall) :
    EndsBy engine good deadline (drainTimeoutMs * nanosPerMs) 0 state
      (MeerklyHeadless.drainErrorPage engine state).2 := by
  refine h.andThen (endsBy_perform h fun _ => ?_) fun _ _ => ⟨rfl, rfl⟩
  exact (h.waits _ _ _ rfl (by decide)).trans (le_max_left _ _)

theorem Timed.gotoOnce (h : Timed engine lag good stall) (url : String) :
    EndsBy engine good (budgetEnd started) stall stall state
      (MeerklyHeadless.gotoOnce engine url started state).2 :=
  h.wait rfl

theorem Timed.goto (h : Timed engine lag good stall) (url : String) :
    EndsBy engine good (budgetEnd started) stall stall state
      (MeerklyHeadless.goto engine url started state).2 := by
  refine EndsBy.bind (h.gotoOnce url) 0 0 (by omega) (by omega) fun outcome after => ?_
  cases outcome with
  | ok _ => exact .refl after
  | error err =>
      refine EndsBy.read ?_
      have hends : ∀ (raised : PyError) (last : CrawlState W), Still last
          ((Prog.ofExcept (describeError raised) >>= fun text =>
            (pure (some text) : Crawl W (Option String))) last).2 := by
        intro raised last
        rw [Prog.bind_apply, Prog.ofExcept_apply]
        cases describeError raised <;> exact ⟨rfl, rfl⟩
      split
      · exact h.still (hends err after)
      · rename_i hretry
        -- a second attempt has a second of the budget at least
        have hleft : 0 < remainingAt started (engine.now after.world) := by
          simp only [Bool.or_eq_true, Bool.not_eq_true', decide_eq_true_eq, not_or, not_lt]
            at hretry
          omega
        have hagain : EndsBy engine good (budgetEnd started) 0 0 after
            (MeerklyHeadless.gotoOnce engine url started after).2 := h.wait_left rfl hleft
        refine h.andThen hagain fun again => ?_
        cases again with
        | ok _ => exact fun _ => ⟨rfl, rfl⟩
        | error raised => exact hends raised

theorem Timed.viewerText (h : Timed engine lag good stall) (selector : String) :
    EndsBy engine good deadline (2 * lag) (2 * lag) state
      (MeerklyHeadless.viewerText engine selector state).2 := by
  refine EndsBy.seq (h.quick rfl rfl (by simp)) lag (by omega) fun element after => ?_
  cases (element : Option ℕ) with
  | none => exact endsBy_stop after _ _
  | some handle => exact h.quick rfl rfl (by simp)

theorem Timed.jsonFromViewer (h : Timed engine lag good stall) (selectors : List String) :
    EndsBy engine good deadline (selectors.length * (2 * lag)) (selectors.length * (2 * lag)) state
      (MeerklyHeadless.jsonFromViewer engine selectors state).2 := by
  induction selectors generalizing state with
  | nil => exact endsBy_stop state _ _
  | cons selector rest ih =>
      have hrest : ∀ after, EndsBy engine good deadline (rest.length * (2 * lag))
          (rest.length * (2 * lag)) after
          (MeerklyHeadless.jsonFromViewer engine rest after).2 := fun _ => ih
      rw [List.length_cons, Nat.succ_mul]
      refine EndsBy.seq (h.viewerText selector) (rest.length * (2 * lag)) (by omega)
        fun outcome after => ?_
      cases outcome with
      | error err => exact hrest after
      | ok text =>
          dsimp only
          split
          · exact endsBy_stop after _ _
          · exact hrest after

theorem Timed.jsonByRefetch (h : Timed engine lag good stall) (url : String) :
    EndsBy engine good deadline (2 * lag) (2 * lag) state
      (MeerklyHeadless.jsonByRefetch engine url state).2 := by
  have htext : EndsBy engine good deadline (2 * lag) (2 * lag) state
      (refetchedText engine url state).2 :=
    EndsBy.seq (h.quick rfl rfl (by simp)) lag (by omega) fun _ _ => h.quick rfl rfl (by simp)
  refine h.andThen htext fun outcome => ?_
  cases outcome with
  | error err => exact fun _ => ⟨rfl, rfl⟩
  | ok body =>
      intro last
      dsimp only
      split <;> exact ⟨rfl, rfl⟩

/-- Seven calls at most recover a JSON body. -/
theorem Timed.rawBodyIfJson (h : Timed engine lag good stall) (response : Option Response) :
    EndsBy engine good deadline (7 * lag) (7 * lag) state
      (MeerklyHeadless.rawBodyIfJson engine response state).2 := by
  have hrecover : ∀ response, EndsBy engine good deadline (7 * lag) (7 * lag) state
      (recoverBody engine response state).2 := by
    intro response
    refine EndsBy.seq (h.quick rfl rfl (by simp)) (6 * lag) (by omega) fun direct middle => ?_
    change EndsBy engine good deadline _ _ middle
      ((if (Option.getD (Except.toOption direct) "" : String) ≠ "" then _ else _ :
        Crawl W (Option String)) middle).2
    split
    · exact endsBy_stop middle _ _
    · refine EndsBy.seq (h.jsonFromViewer ["#json", "pre"]) (2 * lag) ?_ fun viewed after => ?_
      · simp only [List.length_cons, List.length_nil]
        omega
      · split
        · exact endsBy_stop after _ _
        · refine h.andThen (h.jsonByRefetch response.url) fun refetched last => ?_
          split <;> exact ⟨rfl, rfl⟩
  cases response with
  | none => exact endsBy_stop state _ _
  | some response =>
      simp only [MeerklyHeadless.rawBodyIfJson]
      cases response.headers with
      | error err => exact endsBy_stop state _ _
      | ok headers =>
          dsimp only
          split
          · exact h.andThen (hrecover response) fun _ _ => ⟨rfl, rfl⟩
          · exact endsBy_stop state _ _

theorem Timed.selectorVisible (h : Timed engine lag good stall) (selector : String) :
    EndsBy engine good deadline (2 * lag) (2 * lag) state
      (MeerklyHeadless.selectorVisible engine selector state).2 := by
  refine EndsBy.seq (h.quick rfl rfl (by simp)) lag (by omega) fun element after => ?_
  cases (element : Option ℕ) with
  | none => exact endsBy_stop after _ _
  | some handle => exact h.quick rfl rfl (by simp)

theorem Timed.probeRound (h : Timed engine lag good stall) (selectors : List String) (index : ℕ) :
    EndsBy engine good deadline (selectors.length * (2 * lag)) (selectors.length * (2 * lag)) state
      (MeerklyHeadless.probeRound engine selectors index state).2 := by
  induction selectors generalizing state index with
  | nil => exact endsBy_stop state _ _
  | cons selector rest ih =>
      rw [List.length_cons, Nat.succ_mul]
      refine EndsBy.seq (h.selectorVisible selector) (rest.length * (2 * lag)) (by omega)
        fun outcome after => ?_
      match outcome with
      | .ok true => exact endsBy_stop after _ _
      | .ok false => exact ih _
      | .error _ => exact ih _

/-- The rounds overrun the probe's deadline by a pause and the round after it. -/
theorem Timed.probeRounds (h : Timed engine lag good stall) (selectors : List String) (fuel : ℕ) :
    EndsBy engine good deadline (selectors.length * (2 * lag))
      (50 * nanosPerMs + selectors.length * (2 * lag)) state
      (MeerklyHeadless.probeRounds engine selectors deadline fuel state).2 := by
  induction fuel generalizing state with
  | zero => exact endsBy_stop state _ _
  | succ fuel ih =>
      refine Within.mono (Within.bind (h.probeRound selectors 0) fun found after _ =>
        (?_ : EndsBy engine good deadline 0 (50 * nanosPerMs + selectors.length * (2 * lag))
          after _)) (by omega) (by omega)
      cases found with
      | some index => exact endsBy_stop after _ _
      | none =>
          refine EndsBy.read ?_
          split
          · exact endsBy_stop after _ _
          · rename_i hopen
            have hearly : pageTime engine after ≤ deadline := (not_le.mp hopen).le
            have hnext : EndsBy engine good deadline
                (50 * nanosPerMs + selectors.length * (2 * lag))
                (50 * nanosPerMs + selectors.length * (2 * lag)) after
                ((sleepMs engine 50 >>= fun _ =>
                  MeerklyHeadless.probeRounds engine selectors deadline fuel) after).2 :=
              EndsBy.bind (h.sleep 50) _ _ (le_refl _) (by omega) fun _ _ => ih
            exact (hnext.early hearly).mono (le_refl _) (by omega)

def probeGrace (job : Job) (lag : ℕ) : ℕ :=
  50 * nanosPerMs + job.waitRules.length * (2 * lag)

theorem Timed.matchRule (h : Timed engine lag good stall) (job : Job) :
    EndsBy engine good (budgetEnd started) (probeGrace job lag) (probeGrace job lag) state
      (MeerklyHeadless.matchRule engine job started state).2 := by
  unfold MeerklyHeadless.matchRule
  split
  · exact endsBy_stop state _ _
  · rw [remainingMs, Prog.read_bind]
    have hprobe : effectiveDetectProbe job.detectMs (remainingAt started (engine.now state.world)) ≤
        remainingAt started (engine.now state.world) := by
      unfold effectiveDetectProbe
      omega
    have hbudget := Nat.mul_le_mul_right nanosPerMs hprobe
    have hleft := @remainingAt_within started (engine.now state.world)
    have hrounds : EndsBy engine good (pageTime engine state +
        effectiveDetectProbe job.detectMs (remainingAt started (engine.now state.world)) *
          nanosPerMs) _ _ state _ :=
      h.probeRounds (job.waitRules.map WaitRule.guard)
        (effectiveDetectProbe job.detectMs (remainingAt started (engine.now state.world)) / 50 + 2)
    have hinner : pageTime engine state +
        effectiveDetectProbe job.detectMs (remainingAt started (engine.now state.world)) *
          nanosPerMs ≤ max (pageTime engine state) (budgetEnd started) + 0 := by
      unfold pageTime
      omega
    rw [List.length_map] at hrounds
    exact (Within.of_inner hrounds hinner).mono (by unfold probeGrace; omega)
      (by unfold probeGrace; omega)

theorem Timed.safeTitle (h : Timed engine lag good stall) :
    EndsBy engine good deadline lag lag state (MeerklyHeadless.safeTitle engine state).2 := by
  refine h.andThen (h.quick rfl rfl (by simp)) fun outcome => ?_
  cases outcome <;> exact fun _ => ⟨rfl, rfl⟩

end Timed

/-! ## A whole crawl -/

section Whole

variable {engine : Engine W} {good : CrawlState W → Prop} {lag stall started grace : ℕ}
  {state : CrawlState W}

theorem awaitCondition_endsBy (h : Timed engine lag good stall)
    (hsettles : SettlesBy engine good started grace) (job : Job) (mode : String) :
    EndsBy engine good (budgetEnd started) (stall + grace) (stall + grace) state
      (awaitCondition engine job started mode state).2 := by
  have hsettle : ∀ after : CrawlState W, EndsBy engine good (budgetEnd started) grace grace after
      ((remainingMs engine started >>= fun left =>
        settle engine job.settleMs left >>= fun _ => (pure false : Crawl W Bool)) after).2 := by
    intro after
    rw [remainingMs, Prog.read_bind]
    exact h.andThen (hsettles _ _ after (le_refl _)) fun _ _ => ⟨rfl, rfl⟩
  unfold awaitCondition
  cases waitBranch mode with
  | networkidle =>
      refine EndsBy.read ?_
      refine Within.mono (h.andThen (h.wait rfl) fun outcome => ?_) (by omega) (by omega)
      cases outcome <;> exact fun _ => ⟨rfl, rfl⟩
  | settle => exact (hsettle state).mono (by omega) (by omega)
  | selector =>
      refine EndsBy.read ?_
      have hwait : EndsBy engine good (budgetEnd started) stall stall state
          (waitSelectorVisible engine mode (remainingAt started (engine.now state.world))
            state).2 := by
        refine h.andThen (h.wait rfl) fun outcome => ?_
        cases outcome <;> exact fun _ => ⟨rfl, rfl⟩
      refine EndsBy.seq hwait grace (le_refl _) fun timedOut after => ?_
      split
      · exact endsBy_stop after _ _
      · exact hsettle after
  | none => exact endsBy_stop state _ _

/-- The second reading comes only while half a second is left. -/
theorem extractHtml_endsBy (h : Timed engine lag good stall)
    (hsettles : SettlesBy engine good started grace) :
    EndsBy engine good (budgetEnd started) (1000 * nanosPerMs) (grace + 1000 * nanosPerMs) state
      (extractHtml engine started state).2 := by
  rw [extractHtml, remainingMs, Prog.read_bind]
  refine EndsBy.bind h.pageContent_left 0 (grace + 1000 * nanosPerMs) (by omega) (by omega)
    fun html after => ?_
  cases html with
  | some html => exact endsBy_stop after _ _
  | none =>
      refine EndsBy.read ?_
      refine EndsBy.read ?_
      split
      · exact endsBy_stop after _ _
      · rename_i hretry
        have hleft : 500 ≤ remainingAt started (engine.now after.world) := by
          simp only [Bool.or_eq_true, Bool.not_eq_true', decide_eq_true_eq, not_or, not_lt]
            at hretry
          exact hretry.2
        have hearly : pageTime engine after ≤ budgetEnd started := by
          have hpositive : 0 < remainingAt started (engine.now after.world) := by omega
          have hbudget := Nat.pos_of_div_pos hpositive
          unfold pageTime budgetEnd
          omega
        have hagain : ∀ last : CrawlState W, EndsBy engine good (budgetEnd started)
            (1000 * nanosPerMs) (1000 * nanosPerMs) last
            ((remainingMs engine started >>= fun left => pageContent engine left >>= fun html =>
              (pure (html.map fun text => sliceTo text maxHtmlChars) :
                Crawl W (Option String))) last).2 := by
          intro last
          rw [remainingMs, Prog.read_bind]
          exact h.andThen h.pageContent_left fun _ _ => ⟨rfl, rfl⟩
        have hall := EndsBy.seq (hsettles 0 _ after (min_le_left _ 2000)) (1000 * nanosPerMs)
          (le_refl _) fun _ last => hagain last
        exact (hall.early hearly).mono (le_refl _) (by omega)

theorem capture_endsBy (h : Timed engine lag good stall)
    (hsettles : SettlesBy engine good started grace) (rawJson : Option String)
    (matchedRule : ℤ) (waitTimedOut : Bool) :
    EndsBy engine good (budgetEnd started) (1000 * nanosPerMs + lag)
      (grace + 1000 * nanosPerMs + lag) state
      (capture engine started rawJson matchedRule waitTimedOut state).2 := by
  have hdocument : EndsBy engine good (budgetEnd started) (1000 * nanosPerMs)
      (grace + 1000 * nanosPerMs) state (document engine started rawJson state).2 := by
    cases rawJson with
    | some text => exact endsBy_stop state _ _
    | none => exact extractHtml_endsBy h hsettles
  refine EndsBy.bind hdocument lag lag (le_refl _) (by omega) fun html after => ?_
  generalize (if isEmptyDocument html then none else html) = found
  cases found with
  | none =>
      refine EndsBy.read (EndsBy.read ?_)
      refine EndsBy.seq (h.still (still_fail _ _ _ after)) lag (by omega) fun result last => ?_
      exact h.andThen h.safeTitle fun _ _ => ⟨rfl, rfl⟩
  | some text =>
      refine EndsBy.read ?_
      exact h.andThen h.safeTitle fun _ _ => ⟨rfl, rfl⟩

theorem crawlDocument_endsBy (h : Timed engine lag good stall)
    (hsettles : SettlesBy engine good started grace) (job : Job) :
    EndsBy engine good (budgetEnd started)
      (stall + (probeGrace job lag + grace + 1000 * nanosPerMs + 8 * lag))
      (stall + (probeGrace job lag + grace + 1000 * nanosPerMs + 8 * lag)) state
      (crawlDocument engine job started state).2 := by
  have hclassify : EndsBy engine good (budgetEnd started) (probeGrace job lag + 7 * lag)
      (probeGrace job lag + 7 * lag) state (classify engine job started state).2 := by
    refine EndsBy.read ?_
    refine EndsBy.seq (h.rawBodyIfJson _) (probeGrace job lag) (by omega) fun rawJson after => ?_
    exact h.andThen (h.matchRule job) fun _ _ => ⟨rfl, rfl⟩
  refine EndsBy.seq hclassify (stall + grace + 1000 * nanosPerMs + lag) (by omega)
    fun found after => ?_
  exact EndsBy.bind (awaitCondition_endsBy h hsettles job _) (1000 * nanosPerMs + lag)
    (grace + 1000 * nanosPerMs + lag) (by omega) (by omega) fun timedOut last =>
      capture_endsBy h hsettles _ _ _

/-- Two waits may find nothing left of the budget: the first navigation and
that of the selected branch. -/
theorem crawlPage_endsBy (h : Timed engine lag good stall)
    (hsettles : SettlesBy engine good started grace) (job : Job) :
    EndsBy engine good (budgetEnd started)
      (2 * stall + (probeGrace job lag + grace + 1000 * nanosPerMs + 8 * lag))
      (2 * stall + (probeGrace job lag + grace + 1000 * nanosPerMs + 8 * lag)) state
      (crawlPage engine job started state).2 := by
  refine EndsBy.seq (h.goto job.url)
    (stall + (probeGrace job lag + grace + 1000 * nanosPerMs + 8 * lag)) (by omega)
    fun navError after => ?_
  cases navError with
  | some error =>
      have hdrain : EndsBy engine good (budgetEnd started) (drainTimeoutMs * nanosPerMs) 0 after
          ((drainErrorPage engine >>= fun _ => safeUrl engine >>= fun url =>
            fail engine started error url) after).2 :=
        h.andThen h.drainErrorPage fun _ _ => ⟨rfl, rfl⟩
      exact hdrain.mono (by simp only [drainTimeoutMs]; omega) (Nat.zero_le _)
  | none => exact crawlDocument_endsBy h hsettles job

/-- When the budget of a crawl ends, or its browser is up if that is later. -/
def crawlDue (engine : Engine W) (state : CrawlState W) : ℕ :=
  max (engine.now (perform engine .ensureBrowser (freshCall state)).2.world)
    (budgetEnd (engine.now state.world))

/-- A crawl whose settles overrun its budget by `grace` is back by then, by
one more second for the document, and by what the calls without a timeout
take: the crawl makes eight of these at most, and two for each guard once the
probe is over. -/
theorem fetch_endsBy (h : Timed engine lag good stall) (job : Job)
    (hsettles : SettlesBy engine good (engine.now state.world) grace)
    (hgood : good (fetch engine job state).2) :
    engine.now (fetch engine job state).2.world ≤ crawlDue engine state +
      (2 * stall + (probeGrace job lag + grace + 1000 * nanosPerMs + 8 * lag)) := by
  unfold crawlDue
  by_cases hpage : (perform engine .ensureBrowser (freshCall state)).1 = .ok (true : Bool)
  · have hlaunched : Launched engine state
        (perform engine .ensureBrowser (freshCall state)).2 := Prod.ext hpage rfl
    generalize (perform engine .ensureBrowser (freshCall state)).2 = launched at *
    rw [fetch_of_launched hlaunched, ensure_setListening] at hgood ⊢
    have hcrawl := @crawlPage_endsBy W engine good lag stall _ grace (startListening launched)
      h hsettles job
    have hclock := (hcrawl (h.stalls.same (by rfl) hgood)).2
    simp only [pageTime, startListening] at hclock ⊢
    omega
  · rw [fetch_of_not_launched hpage]
    omega

end Whole

/-! ## A page that is slow to the end -/

/-- Its world is the clock: the navigation takes most of the budget, and near
the budget's end the page no longer serializes its document. -/
def tardyEngine (forbidsEval : Bool) : Engine ℕ where
  now clock := clock
  await call clock :=
    match call with
    | .ensureBrowser => ⟨.ok true, [], clock⟩
    | .goto _ timeoutMs => ⟨.ok (), [], clock + min timeoutMs 29500 * nanosPerMs⟩
    | .content deadlineMs =>
        if clock < 29600 * nanosPerMs then ⟨.ok "<html></html>", [], clock⟩
        else ⟨.error ⟨.timeoutError, ""⟩, [], clock + deadlineMs * nanosPerMs⟩
    | .evaluate _ argument deadlineMs =>
        if forbidsEval then
          ⟨.error ⟨.engineError, "call to eval() blocked by CSP"⟩, [], clock⟩
        else ⟨.ok .null, [], clock + min argument deadlineMs * nanosPerMs⟩
    | _ => ⟨.error ⟨.engineError, "not scripted"⟩, [], clock⟩
  sleep := clockSleep
  url _ := .ok "https://example.com/"
  digest text := text.length
  tables := asciiTables
  now_await call clock := by
    cases call with
    | content deadlineMs =>
        dsimp only
        split
        · exact le_refl _
        · exact Nat.le_add_right _ _
    | evaluate snippet argument deadlineMs =>
        dsimp only
        split
        · exact le_refl _
        · exact Nat.le_add_right _ _
    | goto url timeoutMs => exact Nat.le_add_right _ _
    | _ => exact le_refl _
  now_sleep := clockSleep_lasts

theorem timely_tardyEngine (forbidsEval : Bool) : Timely (tardyEngine forbidsEval) 0 where
  waits := by
    rintro call clock timeoutMs htimeout -
    cases call with
    | goto url ms =>
        obtain rfl : ms = timeoutMs := by simpa [EngineCall.waitTimeout?] using htimeout
        exact Nat.add_le_add_left (Nat.mul_le_mul_right _ (min_le_left _ _)) clock
    | content deadlineMs => simp [EngineCall.waitTimeout?] at htimeout
    | evaluate snippet argument deadlineMs => simp [EngineCall.waitTimeout?] at htimeout
    | _ => exact Nat.le_add_right clock _
  cuts := by
    intro call clock deadlineMs hcutoff
    cases call with
    | content ms =>
        obtain rfl : ms = deadlineMs := by simpa [EngineCall.cutoff?] using hcutoff
        simp only [tardyEngine]
        split
        · exact Nat.le_add_right _ _
        · exact le_refl _
    | evaluate snippet argument ms =>
        obtain rfl : ms = deadlineMs := by simpa [EngineCall.cutoff?] using hcutoff
        simp only [tardyEngine]
        split
        · exact Nat.le_add_right _ _
        · exact Nat.add_le_add_left (Nat.mul_le_mul_right _ (min_le_right _ _)) clock
    | _ => simp [EngineCall.cutoff?] at hcutoff
  others := by
    intro call clock hwait hcut _
    cases call with
    | goto url ms => simp [EngineCall.waitTimeout?] at hwait
    | content ms => simp [EngineCall.cutoff?] at hcut
    | evaluate snippet argument ms => simp [EngineCall.cutoff?] at hcut
    | _ => exact le_refl _
  sleeps := fun _ _ => rfl

def stableJob : Job := { exampleJob with waitFor := "stable" }

/-! ## Two kinds of pages -/

variable (engine : Engine W) {lag : ℕ}

/-- While no page forbids `eval`, a crawl is back two seconds after its budget
at most, but for the lag of its quick calls.  Where the budget is over before
one of the two waits that do not look at it, what such a wait takes without a
timeout comes on top. -/
theorem fetch_returns_in_time (h : Timely engine lag) (hallows : AllowsEval engine) (job : Job)
    (state : CrawlState W) :
    (BudgetLasts engine job state →
      engine.now (fetch engine job state).2.world ≤
        crawlDue engine state + 2050 * nanosPerMs + (8 + 2 * job.waitRules.length) * lag) ∧
    ∀ stall, UntimedEnd engine stall →
      engine.now (fetch engine job state).2.world ≤
        crawlDue engine state + 2050 * nanosPerMs + (8 + 2 * job.waitRules.length) * lag +
          2 * stall := by
  have hends : ∀ {good : CrawlState W → Prop} {stall : ℕ}, Timed engine lag good stall →
      good (fetch engine job state).2 → engine.now (fetch engine job state).2.world ≤
        crawlDue engine state + 2050 * nanosPerMs + (8 + 2 * job.waitRules.length) * lag +
          2 * stall := by
    intro good stall htimed hgood
    have hgrace := fetch_endsBy htimed job (htimed.settle_alone hallows) hgood
    unfold probeGrace at hgrace
    rw [Nat.add_mul, Nat.mul_assoc 2, ← Nat.mul_left_comm]
    omega
  constructor
  · intro hlasts
    exact hends ⟨h, stalls_of_waitsBounded engine⟩ (waitsBounded_of_budgetLasts hlasts)
  · intro stall huntimed
    exact hends ⟨h, stalls_of_untimedEnd huntimed⟩ trivial

/-- A page that lets the snippet run to its cap and then hangs. -/
theorem fetch_returns_in_time_tardy :
    (tardyEngine false).now (fetch (tardyEngine false) stableJob (.initial 0)).2.world =
        31000 * nanosPerMs ∧
      (tardyEngine false).now (fetch (tardyEngine false) stableJob (.initial 0)).2.world ≤
        crawlDue (tardyEngine false) (.initial 0) + 2050 * nanosPerMs +
          (8 + 2 * stableJob.waitRules.length) * 0 := by
  refine ⟨by decide +kernel, ?_⟩
  refine (fetch_returns_in_time (tardyEngine false) (timely_tardyEngine false) ?_ stableJob
    (.initial 0)).1 ?_
  · intro snippet argument deadlineMs clock err hraised
    simp [tardyEngine] at hraised
  · apply budgetLasts_of_waitsBounded
    unfold WaitsBounded
    decide +kernel

/-- With pages that forbid `eval`, the polling may add another five seconds
and a pause. -/
theorem fetch_returns_after_polling (h : Timely engine lag) (hblocks : BlocksAtOnce engine lag)
    (job : Job) (state : CrawlState W) :
    (BudgetLasts engine job state →
      engine.now (fetch engine job state).2.world ≤
        crawlDue engine state + 7300 * nanosPerMs + (9 + 2 * job.waitRules.length) * lag) ∧
    ∀ stall, UntimedEnd engine stall →
      engine.now (fetch engine job state).2.world ≤
        crawlDue engine state + 7300 * nanosPerMs + (9 + 2 * job.waitRules.length) * lag +
          2 * stall := by
  have hends : ∀ {good : CrawlState W → Prop} {stall : ℕ}, Timed engine lag good stall →
      good (fetch engine job state).2 → engine.now (fetch engine job state).2.world ≤
        crawlDue engine state + 7300 * nanosPerMs + (9 + 2 * job.waitRules.length) * lag +
          2 * stall := by
    intro good stall htimed hgood
    have hgrace := fetch_endsBy htimed job (htimed.settle_polls hblocks) hgood
    unfold probeGrace at hgrace
    rw [Nat.add_mul, Nat.mul_assoc 2, ← Nat.mul_left_comm]
    simp only [stablePollMs] at hgrace
    omega
  constructor
  · intro hlasts
    exact hends ⟨h, stalls_of_waitsBounded engine⟩ (waitsBounded_of_budgetLasts hlasts)
  · intro stall huntimed
    exact hends ⟨h, stalls_of_untimedEnd huntimed⟩ trivial

/-- A page that forbids the snippet and hangs in the poll under way at the end
of the budget: the gateway's 35 seconds have passed when the crawl is back. -/
theorem fetch_returns_after_polling_tardy :
    (tardyEngine true).now (fetch (tardyEngine true) stableJob (.initial 0)).2.world =
        36750 * nanosPerMs ∧
      (tardyEngine true).now (fetch (tardyEngine true) stableJob (.initial 0)).2.world ≤
        crawlDue (tardyEngine true) (.initial 0) + 7300 * nanosPerMs +
          (9 + 2 * stableJob.waitRules.length) * 0 := by
  refine ⟨by decide +kernel, ?_⟩
  refine (fetch_returns_after_polling (tardyEngine true) (timely_tardyEngine true) ?_ stableJob
    (.initial 0)).1 ?_
  · intro snippet argument deadlineMs clock err _ _
    exact le_refl _
  · apply budgetLasts_of_waitsBounded
    unfold WaitsBounded
    decide +kernel

end MeerklyHeadless
