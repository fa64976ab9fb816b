import MeerklyHeadless.CrawlBudget
import MeerklyHeadless.CrawlResults
import MeerklyHeadless.EngineProjection
import Mathlib.Tactic

/-!
# Which errors escape a crawl

Three places report an error by the first line of its text, inside the
`except` block that caught it.  A text without a line raises there, and nothing
around it catches that.  No other error escapes.
-/

namespace MeerklyHeadless

open ExceptionState
open JsonSchema

variable {W : Type}

/-! ## Failures that cannot be reported -/

/-- The two `except` arms of `exec_js` and `_page_content`: a timeout has a
text of its own. -/
def PyError.Wordless (err : PyError) : Prop :=
  err.message = "" ∧ err.cls ≠ .timeoutError

/-- A failed call whose error has no first line to report. -/
def Mute : EngineCall × PyError → Prop
  | (.goto _ _, err) => err.message = ""
  | (.evaluate _ _ _, err) => err.Wordless
  | (.content _, err) => err.Wordless
  | _ => False

def failuresOf (call : EngineCall) : Except PyError call.Answer → List (EngineCall × PyError)
  | .ok _ => []
  | .error err => [(call, err)]

/-- The same engine, in a world that also records how its calls failed. -/
def Engine.recording (engine : Engine W) : Engine (W × List (EngineCall × PyError)) where
  now world := engine.now world.1
  await call world :=
    let awaited := engine.await call world.1
    ⟨awaited.outcome, awaited.delivered,
      (awaited.world, world.2 ++ failuresOf call awaited.outcome)⟩
  sleep ms world := ((engine.sleep ms world.1).1, ((engine.sleep ms world.1).2, world.2))
  url world := engine.url world.1
  digest := engine.digest
  tables := engine.tables
  now_await call world := engine.now_await call world.1
  now_sleep ms world := engine.now_sleep ms world.1

theorem recording_map (engine : Engine W) :
    EngineMap Prod.fst engine.recording engine where
  now _ := rfl
  await _ _ := rfl
  sleep _ _ := rfl
  url _ := rfl
  digest := rfl
  tables := rfl

/-- The state with an empty record. -/
def CrawlState.recorded (state : CrawlState W) : CrawlState (W × List (EngineCall × PyError)) where
  world := (state.world, [])
  status := state.status
  mainResponse := state.mainResponse
  listening := state.listening
  lastExecError := state.lastExecError
  calls := state.calls
  heard := state.heard

/-- No call failed without a text. -/
def Quiet (state : CrawlState (W × List (EngineCall × PyError))) : Prop :=
  ∀ failure ∈ state.world.2, ¬Mute failure

/-- The method returns as long as no call fails without a text, and raises as
soon as one does. -/
def Withstands {α : Type} (body : Crawl (W × List (EngineCall × PyError)) α) : Prop :=
  Triple Quiet body (fun _ => Quiet) fun _ state => ¬Quiet state

def Calm {α : Type} (body : Crawl (W × List (EngineCall × PyError)) α) : Prop :=
  Moves (fun before after => Quiet before → Quiet after) body

section Rules

variable {α β : Type} {engine : Engine W}

theorem Withstands.pure (value : α) :
    Withstands (pure value : Crawl (W × List (EngineCall × PyError)) α) :=
  Triple.pure fun _ hquiet => hquiet

theorem Withstands.view (get : CrawlState (W × List (EngineCall × PyError)) → α) :
    Withstands (Prog.read get : Crawl (W × List (EngineCall × PyError)) α) :=
  fun _ hquiet => hquiet

theorem Withstands.seq {first : Crawl (W × List (EngineCall × PyError)) α}
    {next : α → Crawl (W × List (EngineCall × PyError)) β} (hfirst : Withstands first)
    (hnext : ∀ value, Withstands (next value)) : Withstands (first >>= next) :=
  Triple.bind hfirst hnext

/-- The `finally` of `_fetch` unregisters the listener and nothing else. -/
theorem Withstands.unlisten {body : Crawl (W × List (EngineCall × PyError)) Dict}
    (h : Withstands body) : Withstands (Prog.ensure body (setListening false)) := by
  intro state hquiet
  have hends := h state hquiet
  rw [ensure_setListening]
  cases hrun : body state with
  | mk outcome after =>
      rw [hrun] at hends
      cases outcome <;> exact hends

/-- What is caught does no harm by itself. -/
theorem Calm.attempt {body : Crawl (W × List (EngineCall × PyError)) α} (h : Calm body) :
    Withstands (Prog.attempt body) :=
  fun state hquiet => h state hquiet

theorem Calm.seq {first : Crawl (W × List (EngineCall × PyError)) α}
    {next : α → Crawl (W × List (EngineCall × PyError)) β} (hfirst : Calm first)
    (hnext : ∀ value, Calm (next value)) : Calm (first >>= next) :=
  Moves.bind (R := fun before after => Quiet before → Quiet after)
    (fun hab hbc hquiet => hbc (hab hquiet)) hfirst hnext

theorem Calm.pure (value : α) :
    Calm (pure value : Crawl (W × List (EngineCall × PyError)) α) :=
  fun _ hquiet => hquiet

/-- A call leaves the record quiet exactly when it did not fail mutely. -/
theorem quiet_perform {call : EngineCall}
    {state : CrawlState (W × List (EngineCall × PyError))} (hquiet : Quiet state) :
    Quiet (perform engine.recording call state).2 ↔
      ∀ err, (perform engine.recording call state).1 = .error err → ¬Mute (call, err) := by
  have hworld : (perform engine.recording call state).2.world.2 =
      state.world.2 ++ failuresOf call (perform engine.recording call state).1 := by
    unfold perform
    rw [(deliver_keeps _ _).2]
    rfl
  unfold Quiet at hquiet ⊢
  rw [hworld, List.forall_mem_append, and_iff_right hquiet]
  cases (perform engine.recording call state).1 with
  | ok value => simp [failuresOf]
  | error err => simp [failuresOf]

theorem calm_perform (engine : Engine W) {call : EngineCall}
    (hcall : ∀ err, ¬Mute (call, err)) : Calm (perform engine.recording call) := by
  intro state hquiet
  exact (quiet_perform hquiet).mpr fun err _ => hcall err

theorem withstands_sleep (engine : Engine W) (ms : ℕ) :
    Withstands (sleepMs engine.recording ms) := by
  intro state hquiet
  have hworld : (sleepMs engine.recording ms state).2.world.2 = state.world.2 := by
    unfold sleepMs
    rw [(deliver_keeps _ _).2]
    rfl
  have hkept : Quiet (sleepMs engine.recording ms state).2 := by
    unfold Quiet
    rw [hworld]
    exact hquiet
  exact hkept

/-- A handler has to return after a failure with a text, and to raise after one
without. -/
def Handles (mute : Prop) (handler : Crawl (W × List (EngineCall × PyError)) β) : Prop :=
  Triple (fun state => Quiet state ↔ ¬mute) handler (fun _ => Quiet) fun _ state => ¬Quiet state

theorem Withstands.caught {call : EngineCall}
    {next : Except PyError call.Answer → Crawl (W × List (EngineCall × PyError)) β}
    (hok : ∀ value, Withstands (next (.ok value)))
    (hfailed : ∀ err, Handles (Mute (call, err)) (next (.error err))) :
    Withstands (Prog.attempt (perform engine.recording call) >>= next) := by
  intro state hquiet
  have hafter := @quiet_perform W engine call state hquiet
  rw [Prog.attempt_bind]
  cases houtcome : (perform engine.recording call state).1 with
  | ok value =>
      rw [houtcome] at hafter
      exact hok value _ (hafter.mpr (by simp))
  | error err =>
      rw [houtcome] at hafter
      apply hfailed err
      simpa using hafter

theorem Handles.raise_or_return {mute : Prop} {outcome : Except PyError α}
    {next : α → Crawl (W × List (EngineCall × PyError)) β}
    (hraises : mute ↔ ∃ err, outcome = .error err) (hnext : ∀ value, Withstands (next value)) :
    Handles mute (Prog.ofExcept outcome >>= next) := by
  intro state hstate
  rw [Prog.bind_apply, Prog.ofExcept_apply]
  cases outcome with
  | error err =>
      have hmute : mute := hraises.mpr ⟨err, rfl⟩
      exact fun hquiet => hstate.mp hquiet hmute
  | ok value =>
      have hnot : ¬mute := by
        rw [hraises]
        simp
      exact hnext value state (hstate.mpr hnot)

end Rules

theorem firstLine_raises (message : String) :
    message = "" ↔ ∃ err, firstLine message = .error err := by
  unfold firstLine
  by_cases hempty : message = ""
  · rw [if_pos hempty]
    exact iff_of_true hempty ⟨_, rfl⟩
  · rw [if_neg hempty]
    simp [hempty]

theorem describeError_raises (err : PyError) :
    err.message = "" ↔ ∃ raised, describeError err = .error raised := by
  unfold describeError
  by_cases htimeout : isTimeoutMessage err.message.toList = true
  · rw [if_pos htimeout]
    refine iff_of_false ?_ (by simp)
    intro hempty
    rw [hempty] at htimeout
    contradiction
  · rw [if_neg htimeout, firstLine_raises]
    cases firstLine err.message <;> simp [Except.map]

section Methods

variable {engine : Engine W}

theorem setExecError_withstands (error : Option String) :
    Withstands (setExecError (W := W × List (EngineCall × PyError)) error) :=
  fun _ hquiet => hquiet

theorem noteExecError_handles (budgetMs : ℕ) (err : PyError) :
    Handles err.Wordless
      (noteExecError (W := W × List (EngineCall × PyError)) budgetMs err) := by
  unfold noteExecError PyError.Wordless
  split
  next htimeout =>
    intro state hstate
    exact hstate.mpr fun hwordless => hwordless.2 htimeout
  next htimeout =>
    apply Handles.raise_or_return
    · rw [← firstLine_raises]
      exact and_iff_left htimeout
    · intro line
      exact setExecError_withstands _

theorem execJs_withstands (snippet : Snippet) (argument budgetMs : ℕ) (fallback : Json) :
    Withstands (execJs engine.recording snippet argument budgetMs fallback) := by
  apply Withstands.caught
  · intro value
    exact (setExecError_withstands none).seq fun _ => .pure value
  · intro err
    exact Triple.bind (noteExecError_handles budgetMs err) fun _ => Withstands.pure fallback

theorem pageContent_withstands (budgetMs : ℕ) :
    Withstands (pageContent engine.recording budgetMs) := by
  apply Withstands.caught
  · intro html
    exact (setExecError_withstands none).seq fun _ => .pure (some html)
  · intro err
    exact Triple.bind (noteExecError_handles budgetMs err) fun _ => Withstands.pure none

theorem gotoOnce_caught {α : Type} {url : String} {started : ℕ}
    {next : Except PyError Unit → Crawl (W × List (EngineCall × PyError)) α}
    (hok : ∀ value, Withstands (next (.ok value)))
    (hfailed : ∀ err, Handles (err.message = "") (next (.error err))) :
    Withstands (gotoOnce engine.recording url started >>= next) := by
  intro state hquiet
  exact @Withstands.caught W _ engine (.goto url (remainingAt started
    (engine.recording.now state.world))) _ hok hfailed state hquiet

/-- The error that is described is the first one, unless it was the
interruption by another navigation and a second is left. -/
theorem goto_withstands (url : String) (started : ℕ) :
    Withstands (goto engine.recording url started) := by
  have hdescribed : ∀ err : PyError, Handles (err.message = "") (do
      return some (← Prog.ofExcept (describeError err)) :
        Crawl (W × List (EngineCall × PyError)) (Option String)) := by
    intro err
    exact .raise_or_return (describeError_raises err) fun text => .pure (some text)
  apply gotoOnce_caught
  · intro value
    exact .pure none
  · intro err state hstate
    dsimp only
    rw [remainingMs, Prog.read_bind]
    split
    · exact hdescribed err state hstate
    · next hretry =>
      have hspoken : err.message ≠ "" := by
        intro hempty
        have hmute : isInterrupted err = false := by
          rw [isInterrupted, hempty]
          decide
        simp [hmute] at hretry
      refine gotoOnce_caught ?_ hdescribed state (hstate.mpr hspoken)
      intro value
      exact .pure none

/-! ## Methods that catch everything they await -/

theorem safeTitle_withstands : Withstands (safeTitle engine.recording) := by
  apply (calm_perform engine (fun _ => id)).attempt.seq
  intro outcome
  cases outcome with
  | ok title => exact .pure (some title)
  | error err => exact .pure none

theorem drainErrorPage_withstands : Withstands (drainErrorPage engine.recording) :=
  (calm_perform engine (fun _ => id)).attempt.seq fun _ => .pure ()

theorem waitSelectorVisible_withstands (selector : String) (budgetMs : ℕ) :
    Withstands (waitSelectorVisible engine.recording selector budgetMs) := by
  apply (calm_perform engine (fun _ => id)).attempt.seq
  intro outcome
  cases outcome with
  | ok found => exact .pure false
  | error err => exact .pure true

theorem networkIdle_withstands (budgetMs : ℕ) :
    Withstands (networkIdle engine.recording budgetMs) := by
  apply (calm_perform engine (fun _ => id)).attempt.seq
  intro outcome
  cases outcome with
  | ok idle => exact .pure false
  | error err => exact .pure true

theorem selectorVisible_calm (selector : String) :
    Calm (selectorVisible engine.recording selector) := by
  apply Calm.seq (calm_perform engine (fun _ => id))
  intro element
  cases (element : Option ℕ) with
  | none => exact .pure false
  | some handle => exact calm_perform engine fun _ => id

theorem probeRound_withstands (selectors : List String) (index : ℕ) :
    Withstands (probeRound engine.recording selectors index) := by
  induction selectors generalizing index with
  | nil => exact .pure none
  | cons selector rest ih =>
      apply (selectorVisible_calm selector).attempt.seq
      intro outcome
      cases outcome with
      | error err => exact ih _
      | ok visible =>
          cases visible with
          | true => exact .pure (some index)
          | false => exact ih _

theorem probeRounds_withstands (selectors : List String) (deadline fuel : ℕ) :
    Withstands (probeRounds engine.recording selectors deadline fuel) := by
  induction fuel with
  | zero => exact .pure (-1)
  | succ fuel ih =>
      apply (probeRound_withstands selectors 0).seq
      intro found
      cases found with
      | some index => exact .pure (index : ℤ)
      | none =>
          apply (Withstands.view _).seq
          intro now
          split
          · exact .pure (-1)
          · exact (withstands_sleep engine 50).seq fun _ => ih

theorem matchRule_withstands (job : Job) (started : ℕ) :
    Withstands (matchRule engine.recording job started) := by
  unfold matchRule
  split
  · exact .pure (-1)
  · exact (Withstands.view _).seq fun _ => (Withstands.view _).seq fun _ =>
      probeRounds_withstands _ _ _

theorem viewerText_calm (selector : String) : Calm (viewerText engine.recording selector) := by
  apply Calm.seq (calm_perform engine (fun _ => id))
  intro element
  cases (element : Option ℕ) with
  | none => exact .pure ""
  | some handle => exact calm_perform engine fun _ => id

theorem jsonFromViewer_withstands (selectors : List String) :
    Withstands (jsonFromViewer engine.recording selectors) := by
  induction selectors with
  | nil => exact .pure none
  | cons selector rest ih =>
      apply (viewerText_calm selector).attempt.seq
      intro outcome
      cases outcome with
      | error err => exact ih
      | ok text =>
          dsimp only
          split
          · exact .pure (some text)
          · exact ih

theorem jsonByRefetch_withstands (url : String) :
    Withstands (jsonByRefetch engine.recording url) := by
  have htext : Calm (refetchedText engine.recording url) :=
    Calm.seq (calm_perform engine (fun _ => id)) fun _ => calm_perform engine fun _ => id
  apply htext.attempt.seq
  intro outcome
  cases outcome with
  | error err => exact .pure none
  | ok body =>
      dsimp only
      split
      · exact .pure (some body)
      · exact .pure none

theorem recoverBody_withstands (response : Response) :
    Withstands (recoverBody engine.recording response) := by
  apply (calm_perform engine (fun _ => id)).attempt.seq
  intro direct
  dsimp only
  split
  · exact .pure _
  apply (jsonFromViewer_withstands _).seq
  intro viewed
  split
  · exact .pure viewed
  apply (jsonByRefetch_withstands _).seq
  intro refetched
  split
  · exact .pure refetched
  · exact .pure none

theorem rawBodyIfJson_withstands (response : Option Response) :
    Withstands (rawBodyIfJson engine.recording response) := by
  cases response with
  | none => exact .pure none
  | some response =>
      simp only [rawBodyIfJson]
      split
      · exact .pure none
      · split
        · exact (recoverBody_withstands response).seq fun _ => .pure _
        · exact .pure none

/-! ## The rest of a crawl -/

theorem pollDocument_withstands (deadline fuel : ℕ) (previous : Option ℕ) (lastChange : ℕ) :
    Withstands (pollDocument engine.recording deadline fuel previous lastChange) := by
  induction fuel generalizing previous lastChange with
  | zero => exact .pure ()
  | succ fuel ih =>
      apply (Withstands.view _).seq
      intro now
      split
      · exact .pure ()
      apply (pageContent_withstands 5000).seq
      intro html
      cases html with
      | none => exact .pure ()
      | some html =>
          apply (Withstands.view _).seq
          intro seen
          split
          · exact (withstands_sleep engine _).seq fun _ => ih _ _
          · split
            · exact .pure ()
            · exact (withstands_sleep engine _).seq fun _ => ih _ _

theorem settle_withstands (settleMs budgetMs : ℕ) :
    Withstands (settle engine.recording settleMs budgetMs) := by
  apply (execJs_withstands _ _ _ _).seq
  intro value
  apply (Withstands.view _).seq
  intro lastError
  split
  · exact (Withstands.view _).seq fun _ => pollDocument_withstands _ _ _ _
  · exact .pure ()

theorem awaitCondition_withstands (job : Job) (started : ℕ) (mode : String) :
    Withstands (awaitCondition engine.recording job started mode) := by
  unfold awaitCondition
  cases waitBranch mode with
  | networkidle => exact (Withstands.view _).seq fun _ => networkIdle_withstands _
  | settle =>
      exact (Withstands.view _).seq fun _ => (settle_withstands _ _).seq fun _ => .pure false
  | selector =>
      apply (Withstands.view _).seq
      intro left
      apply (waitSelectorVisible_withstands _ _).seq
      intro timedOut
      split
      · exact .pure true
      · exact (Withstands.view _).seq fun _ => (settle_withstands _ _).seq fun _ => .pure false
  | none => exact .pure false

theorem extractHtml_withstands (started : ℕ) :
    Withstands (extractHtml engine.recording started) := by
  apply (Withstands.view _).seq
  intro left
  apply (pageContent_withstands left).seq
  intro html
  cases html with
  | some html => exact .pure _
  | none =>
      apply (Withstands.view _).seq
      intro lastError
      apply (Withstands.view _).seq
      intro left
      split
      · exact .pure none
      · exact (settle_withstands _ _).seq fun _ => (Withstands.view _).seq fun _ =>
          (pageContent_withstands _).seq fun _ => .pure _

theorem fail_withstands (started : ℕ) (error : String) (finalUrl : Option String) :
    Withstands (fail engine.recording started error finalUrl) :=
  (Withstands.view _).seq fun _ => (Withstands.view _).seq fun _ => .pure _

theorem classify_withstands (job : Job) (started : ℕ) :
    Withstands (classify engine.recording job started) :=
  (Withstands.view _).seq fun _ => (rawBodyIfJson_withstands _).seq fun _ =>
    (matchRule_withstands _ _).seq fun _ => .pure _

theorem capture_withstands (started : ℕ) (rawJson : Option String) (matchedRule : ℤ)
    (waitTimedOut : Bool) :
    Withstands (capture engine.recording started rawJson matchedRule waitTimedOut) := by
  have hdocument : Withstands (document engine.recording started rawJson) := by
    cases rawJson with
    | some text => exact .pure (some text)
    | none => exact extractHtml_withstands started
  apply hdocument.seq
  intro html
  split
  · exact (Withstands.view _).seq fun _ => (Withstands.view _).seq fun _ =>
      (fail_withstands _ _ _).seq fun _ => safeTitle_withstands.seq fun _ => .pure _
  · exact (Withstands.view _).seq fun _ => safeTitle_withstands.seq fun _ =>
      (Withstands.view _).seq fun _ => (Withstands.view _).seq fun _ => .pure _

theorem crawlPage_withstands (job : Job) (started : ℕ) :
    Withstands (crawlPage engine.recording job started) := by
  apply (goto_withstands _ _).seq
  intro navError
  cases navError with
  | some error =>
      exact drainErrorPage_withstands.seq fun _ => (Withstands.view _).seq fun _ =>
        fail_withstands _ _ _
  | none =>
      exact (classify_withstands _ _).seq fun _ => (awaitCondition_withstands _ _ _).seq fun _ =>
        capture_withstands _ _ _ _

theorem fetch_withstands (job : Job) : Withstands (fetch engine.recording job) := by
  have hfresh : Withstands (Prog.modify freshCall :
      Crawl (W × List (EngineCall × PyError)) Unit) := fun _ hquiet => hquiet
  apply hfresh.seq
  intro _
  apply (Withstands.view _).seq
  intro started
  apply (calm_perform engine (fun _ => id)).attempt.seq
  intro outcome
  cases outcome with
  | error err => exact fail_withstands _ _ _
  | ok page =>
      cases (page : Bool) with
      | false => exact fail_withstands _ _ _
      | true =>
          have hlisten : Withstands (setListening (W := W × List (EngineCall × PyError)) true) :=
            fun _ hquiet => hquiet
          exact hlisten.seq fun _ => (crawlPage_withstands job started).unlisten

/-! ## What the methods return -/

theorem returns_iff_quiet {α : Type} {body : Crawl (W × List (EngineCall × PyError)) α}
    {plain : Crawl W α} (hplain : Projects (CrawlState.project Prod.fst) body plain)
    (hwithstands : Withstands body) (state : CrawlState W) :
    (∃ value, (plain state).1 = .ok value) ↔ Quiet (body state.recorded).2 := by
  have hempty : Quiet state.recorded := by simp [Quiet, CrawlState.recorded]
  have hends := hwithstands state.recorded hempty
  have hsame : (plain state).1 = (body state.recorded).1 :=
    congrArg Prod.fst (hplain state.recorded)
  rw [hsame]
  cases hrun : body state.recorded with
  | mk outcome after =>
      rw [hrun] at hends
      cases outcome with
      | error err =>
          have hloud : ¬Quiet after := hends
          simp [hloud]
      | ok value =>
          have hquiet : Quiet after := hends
          simp [hquiet]

theorem execJs_value {snippet : Snippet} {argument budgetMs : ℕ} {fallback value : Json}
    {state : CrawlState W}
    (h : (execJs engine snippet argument budgetMs fallback state).1 = .ok value) :
    value = fallback ∨
      (engine.await (.evaluate snippet argument (budgetMs + 1000)) state.world).outcome =
        .ok value := by
  have hrun : execJs engine snippet argument budgetMs fallback state = (.ok value, _) :=
    Prod.ext h rfl
  rw [execJs, Prog.attempt_bind] at hrun
  have houtcome : (perform engine (.evaluate snippet argument (budgetMs + 1000)) state).1 =
    (engine.await (.evaluate snippet argument (budgetMs + 1000)) state.world).outcome := rfl
  rw [houtcome] at hrun
  cases hawaited : (engine.await (.evaluate snippet argument (budgetMs + 1000))
      state.world).outcome with
  | ok found =>
      rw [hawaited] at hrun
      obtain ⟨_, _, _, hpure⟩ := Prog.bind_eq_ok hrun
      cases hpure
      exact .inr rfl
  | error err =>
      rw [hawaited] at hrun
      obtain ⟨_, _, _, hpure⟩ := Prog.bind_eq_ok hrun
      cases hpure
      exact .inl rfl

theorem pageContent_value {budgetMs : ℕ} {html : String} {state : CrawlState W}
    (h : (pageContent engine budgetMs state).1 = .ok (some html)) :
    (engine.await (.content (budgetMs + 1000)) state.world).outcome = .ok html := by
  have hrun : pageContent engine budgetMs state = (.ok (some html), _) := Prod.ext h rfl
  rw [pageContent, Prog.attempt_bind] at hrun
  have houtcome : (perform engine (.content (budgetMs + 1000)) state).1 =
    (engine.await (.content (budgetMs + 1000)) state.world).outcome := rfl
  rw [houtcome] at hrun
  cases hawaited : (engine.await (.content (budgetMs + 1000)) state.world).outcome with
  | ok found =>
      rw [hawaited] at hrun
      obtain ⟨_, _, _, hpure⟩ := Prog.bind_eq_ok hrun
      cases hpure
      rfl
  | error err =>
      rw [hawaited] at hrun
      obtain ⟨_, _, _, hpure⟩ := Prog.bind_eq_ok hrun
      cases hpure

end Methods

/-- A method of the crawl returns exactly when, of the calls it makes, no
navigation fails without a text and no reading of the page fails without one,
timeouts apart; and then it returns what it is meant to. -/
theorem crawl_returns_iff (engine : Engine W) (state : CrawlState W) :
    (∀ snippet argument budgetMs fallback,
      ((∃ value, (execJs engine snippet argument budgetMs fallback state).1 = .ok value) ↔
        Quiet (execJs engine.recording snippet argument budgetMs fallback state.recorded).2) ∧
      ∀ value, (execJs engine snippet argument budgetMs fallback state).1 = .ok value →
        value = fallback ∨
          (engine.await (.evaluate snippet argument (budgetMs + 1000)) state.world).outcome =
            .ok value) ∧
    (∀ budgetMs,
      ((∃ content, (pageContent engine budgetMs state).1 = .ok content) ↔
        Quiet (pageContent engine.recording budgetMs state.recorded).2) ∧
      ∀ html, (pageContent engine budgetMs state).1 = .ok (some html) →
        (engine.await (.content (budgetMs + 1000)) state.world).outcome = .ok html) ∧
    (∀ url started,
      (∃ navError, (goto engine url started state).1 = .ok navError) ↔
        Quiet (goto engine.recording url started state.recorded).2) ∧
    (∀ job,
      ((∃ result, (fetch engine job state).1 = .ok result) ↔
        Quiet (fetch engine.recording job state.recorded).2) ∧
      ∀ result, (fetch engine job state).1 = .ok result → CrawlResult job result) := by
  have hmap := recording_map engine
  refine ⟨?_, ?_, ?_, ?_⟩
  · intro snippet argument budgetMs fallback
    exact ⟨returns_iff_quiet (hmap.execJs _ _ _ _) (execJs_withstands _ _ _ _) state,
      fun value => execJs_value⟩
  · intro budgetMs
    exact ⟨returns_iff_quiet (hmap.pageContent _) (pageContent_withstands _) state,
      fun html => pageContent_value⟩
  · intro url started
    exact returns_iff_quiet (hmap.view.goto _ _) (goto_withstands _ _) state
  · intro job
    refine ⟨returns_iff_quiet (hmap.fetch job) (fetch_withstands job) state, ?_⟩
    intro result hresult
    exact fetch_yields engine job state result _ (Prod.ext hresult rfl)

/-! ## A page error without a text -/

/-- Its world is the clock; the settle snippet raises an error whose text is
empty. -/
def wordlessEngine : Engine ℕ where
  now clock := clock
  await call clock :=
    match call with
    | .ensureBrowser => ⟨.ok true, [], clock⟩
    | .goto _ _ => ⟨.ok (), [], clock + nanosPerMs⟩
    | .content _ => ⟨.ok "<html></html>", [], clock⟩
    | _ => ⟨.error ⟨.engineError, ""⟩, [], clock⟩
  sleep := clockSleep
  url _ := .ok "https://example.com/"
  digest text := text.length
  tables := asciiTables
  now_await call clock := by
    cases call <;> simp
  now_sleep := clockSleep_lasts

theorem wordless_error_escapes :
    ∃ job, (fetch wordlessEngine job (.initial 0)).1 =
      .error ⟨.indexError, "list index out of range"⟩ :=
  ⟨{ exampleJob with waitFor := waitForDefault }, rfl⟩

end MeerklyHeadless
