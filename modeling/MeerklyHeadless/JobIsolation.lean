import MeerklyHeadless.CrawlErrors
import MeerklyHeadless.JsonRecovery
import Mathlib.Tactic

/-!
# What one job leaves to the next

The last page error outlives the job that it belongs to.  A crawl writes it
whenever it evaluates a snippet or reads the page, and reads it to explain why
it has no document.  Two crawls that start with different errors are compared:
up to the first write they differ in nothing but that field, after it in nothing
at all.
-/

namespace MeerklyHeadless

open ExceptionState
open JsonSchema

variable {W : Type}

/-! ## Two crawls apart in the last page error -/

/-- The same state, with the error that some earlier job left. -/
def leaving (error : Option String) (state : CrawlState W) : CrawlState W :=
  { state with lastExecError := error }

theorem leaving_deliver (error : Option String) (responses : List Response)
    (state : CrawlState W) :
    (leaving error state).deliver responses = leaving error (state.deliver responses) := by
  apply deliver_commutes
  · intro state response
    unfold onResponse
    split <;> rfl
  · exact fun _ => rfl

theorem leaving_view (engine : Engine W) (error : Option String) :
    StateView (leaving error) engine engine where
  call call state := by
    have hdeliver := leaving_deliver error (engine.await call state.world).delivered
      { state with
        world := (engine.await call state.world).world, calls := state.calls ++ [call] }
    exact Prod.ext rfl hdeliver
  sleep ms state := by
    have hdeliver := leaving_deliver error (engine.sleep ms state.world).1
      { state with world := (engine.sleep ms state.world).2 }
    exact Prod.ext rfl hdeliver
  now _ := rfl
  url _ := rfl
  status _ := rfl
  mainResponse _ := rfl
  tables := rfl

/-- Whatever was left, it ends alike, and after a normal end nothing tells what
that was. -/
def Clears {α : Type} (body : Crawl W α) : Prop :=
  ∀ error state, (body (leaving error state)).1 = (body state).1 ∧
    ∀ value, (body state).1 = .ok value → (body (leaving error state)).2 = (body state).2

section Clears

variable {α β : Type} {first : Crawl W α} {next : α → Crawl W β}

theorem Clears.bind (hfirst : Clears first) : Clears (first >>= next) := by
  intro error state
  obtain ⟨houtcome, hstate⟩ := hfirst error state
  rw [Prog.bind_apply, Prog.bind_apply]
  cases hleft : first (leaving error state) with
  | mk outcome after =>
      cases hrun : first state with
      | mk plain last =>
          rw [hleft, hrun] at houtcome hstate
          dsimp only at houtcome hstate
          subst houtcome
          cases outcome with
          | error err => exact ⟨rfl, fun value hvalue => by cases hvalue⟩
          | ok value =>
              rw [hstate value rfl]
              exact ⟨rfl, fun _ _ => rfl⟩

theorem Clears.after (hfirst : ∀ error, Projects (leaving error) first first)
    (hnext : ∀ value, Clears (next value)) : Clears (first >>= next) := by
  intro error state
  rw [Prog.bind_apply, Prog.bind_apply, hfirst error state]
  cases hrun : first state with
  | mk outcome last =>
      cases outcome with
      | error err => exact ⟨rfl, fun value hvalue => by cases hvalue⟩
      | ok value => exact hnext value error last

theorem Clears.eq_of_ok {body : Crawl W α} (hbody : Clears body) (error : Option String)
    {state after : CrawlState W} {value : α} (hrun : body state = (.ok value, after)) :
    body (leaving error state) = (.ok value, after) := by
  obtain ⟨houtcome, hstate⟩ := hbody error state
  rw [hrun] at houtcome hstate
  exact Prod.ext houtcome (hstate value rfl)

theorem setExecError_clears (error : Option String) : Clears (setExecError (W := W) error) :=
  fun _ _ => ⟨rfl, fun _ _ => rfl⟩

theorem noteExecError_clears (budgetMs : ℕ) (err : PyError) :
    Clears (noteExecError (W := W) budgetMs err) := by
  unfold noteExecError
  split
  · exact setExecError_clears _
  · apply Clears.after
    · exact fun _ => .ofExcept _
    · exact fun _ => setExecError_clears _

end Clears

section Methods

variable (engine : Engine W)

theorem pageContent_clears (budgetMs : ℕ) : Clears (pageContent engine budgetMs) := by
  apply Clears.after
  · exact fun error => ((leaving_view engine error).call _).attempt
  · intro outcome
    cases outcome with
    | ok html => exact (setExecError_clears none).bind
    | error err => exact (noteExecError_clears _ err).bind

theorem execJs_clears (snippet : Snippet) (argument budgetMs : ℕ) (fallback : Json) :
    Clears (execJs engine snippet argument budgetMs fallback) := by
  apply Clears.after
  · exact fun error => ((leaving_view engine error).call _).attempt
  · intro outcome
    cases outcome with
    | ok value => exact (setExecError_clears none).bind
    | error err => exact (noteExecError_clears _ err).bind

theorem settle_clears (settleMs budgetMs : ℕ) : Clears (settle engine settleMs budgetMs) :=
  (execJs_clears engine _ _ _ _).bind

theorem extractHtml_clears (started : ℕ) : Clears (extractHtml engine started) := by
  apply Clears.after
  · exact fun error => (leaving_view engine error).remainingMs started
  · exact fun left => (pageContent_clears engine left).bind

end Methods

/-! ## The wait -/

/-- The wait evaluates the settle snippet; a selector that never shows keeps it
from that. -/
def WaitBranch.evaluates : WaitBranch → Bool → Bool
  | settle, _ => true
  | selector, timedOut => !timedOut
  | networkidle, _ => false
  | none, _ => false

theorem awaitCondition_leaving {engine : Engine W} {job : Job} {started : ℕ} {mode : String}
    (error : Option String) (state : CrawlState W) :
    (awaitCondition engine job started mode (leaving error state)).1 =
        (awaitCondition engine job started mode state).1 ∧
      ∀ timedOut waited, awaitCondition engine job started mode state = (.ok timedOut, waited) →
        awaitCondition engine job started mode (leaving error state) =
          (.ok timedOut, if (waitBranch mode).evaluates timedOut then waited
            else leaving error waited) := by
  have hview := leaving_view engine error
  have hsettle : Clears (do
      settle engine job.settleMs (← remainingMs engine started)
      return false : Crawl W Bool) := by
    apply Clears.after
    · exact fun error => (leaving_view engine error).remainingMs started
    · exact fun left => (settle_clears engine _ left).bind
  have hcalm : ∀ {body : Crawl W Bool}, Projects (leaving error) body body →
      (body (leaving error state)).1 = (body state).1 ∧
        ∀ timedOut waited, body state = (.ok timedOut, waited) →
          body (leaving error state) = (.ok timedOut, leaving error waited) := by
    intro body hbody
    rw [hbody state]
    refine ⟨rfl, ?_⟩
    intro timedOut waited hrun
    rw [hrun]
  unfold awaitCondition
  cases waitBranch mode with
  | networkidle => exact hcalm (.bind (hview.remainingMs _) fun _ => hview.networkIdle _)
  | none => exact hcalm (.pure _)
  | settle =>
      refine ⟨(hsettle error state).1, ?_⟩
      intro timedOut waited hrun
      exact hsettle.eq_of_ok error hrun
  | selector =>
      have hworld : (leaving error state).world = state.world := rfl
      have hlook := hview.waitSelectorVisible mode
        (remainingAt started (engine.now state.world)) state
      dsimp only
      rw [remainingMs, Prog.read_bind, Prog.read_bind, hworld, Prog.bind_apply, Prog.bind_apply,
        hlook]
      cases waitSelectorVisible engine mode (remainingAt started (engine.now state.world))
          state with
      | mk outcome seen =>
          cases outcome with
          | error err =>
              refine ⟨rfl, ?_⟩
              intro timedOut waited hrun
              cases hrun
          | ok timedOut =>
              cases timedOut with
              | true =>
                  refine ⟨rfl, ?_⟩
                  intro timedOut waited hrun
                  cases hrun
                  rfl
              | false =>
                  refine ⟨(hsettle error seen).1, ?_⟩
                  intro timedOut waited hrun
                  obtain ⟨left, timed, _, hrest⟩ := Prog.bind_eq_ok hrun
                  obtain ⟨_, settled, _, hpure⟩ := Prog.bind_eq_ok hrest
                  have hmet := hsettle.eq_of_ok error hrun
                  cases hpure
                  exact hmet

/-! ## The document -/

section Capture

variable (engine : Engine W) (started : ℕ) (matchedRule : ℤ) (waitTimedOut : Bool)

theorem capture_clears :
    Clears (capture engine started none matchedRule waitTimedOut) :=
  (extractHtml_clears engine started).bind

/-- The result for a JSON body that is shown. -/
def shownResult (text : String) : Crawl W Dict := do
  let url ← safeUrl engine
  let title ← safeTitle engine
  let elapsed ← elapsedMs engine started
  let status ← Prog.read fun state => state.status
  return successResult url (titleFor engine.tables title url true) text true elapsed
    waitTimedOut matchedRule status

theorem capture_shown {text : String} (hshown : isEmptyDocument (some text) = false) :
    capture engine started (some text) matchedRule waitTimedOut =
      shownResult engine started matchedRule waitTimedOut text := by
  funext state
  have hread : document engine started (some text) state = (.ok (some text), state) := rfl
  rw [capture, Prog.bind_of_eq hread, hshown]
  rfl

/-- A document that is shown needs no explanation. -/
theorem shownResult_calm (text : String) (error : Option String) :
    Projects (leaving error) (shownResult engine started matchedRule waitTimedOut text)
      (shownResult engine started matchedRule waitTimedOut text) := by
  have hview := leaving_view engine error
  apply Projects.bind hview.safeUrl
  intro url
  apply Projects.bind hview.safeTitle
  intro title
  apply Projects.bind (hview.elapsedMs started)
  intro elapsed
  exact .bind (.read hview.status) fun _ => .pure _

end Capture

/-! ## A whole crawl -/

/-- The crawl comes to its document with nothing written: the JSON body is
blank, so that the page is not read, and the wait evaluated nothing. -/
def ReadsLeftover (engine : Engine W) (job : Job) (state : CrawlState W) : Prop :=
  ∃ (stages : Stages engine job state) (text : String), stages.rawJson = some text ∧
    isEmptyDocument (some text) = true ∧
      (waitBranch (waitMode job stages.matchedRule)).evaluates stages.waitTimedOut = false

section Whole

variable {engine : Engine W} {job : Job} {state : CrawlState W}

/-- If the first part does not look at the field, the rest may use how it ended. -/
theorem leaving_bind {α β : Type} {first : Crawl W α} {next : α → Crawl W β}
    {error : Option String} (hfirst : Projects (leaving error) first first)
    (hnext : ∀ value after, first state = (.ok value, after) →
      (next value (leaving error after)).1 = (next value after).1) :
    ((first >>= next) (leaving error state)).1 = ((first >>= next) state).1 := by
  rw [Prog.bind_apply, Prog.bind_apply, hfirst state]
  cases hrun : first state with
  | mk outcome after =>
      cases outcome with
      | error err => rfl
      | ok value => exact hnext value after hrun

theorem leaving_outcome {α : Type} {body : Crawl W α} {error : Option String}
    (h : Projects (leaving error) body body) (state : CrawlState W) :
    (body (leaving error state)).1 = (body state).1 := by
  rw [h state]

theorem rest_alike {started : ℕ} {classified : CrawlState W} {rawJson : Option String}
    {matchedRule : ℤ} (error : Option String)
    (hwritten : ∀ text timedOut waited, rawJson = some text →
      isEmptyDocument (some text) = true →
        awaitCondition engine job started (waitMode job matchedRule) classified =
          (.ok timedOut, waited) →
            (waitBranch (waitMode job matchedRule)).evaluates timedOut = true) :
    ((awaitCondition engine job started (waitMode job matchedRule) >>= fun waitTimedOut =>
        capture engine started rawJson matchedRule waitTimedOut) (leaving error classified)).1 =
      ((awaitCondition engine job started (waitMode job matchedRule) >>= fun waitTimedOut =>
        capture engine started rawJson matchedRule waitTimedOut) classified).1 := by
  obtain ⟨houtcome, hstate⟩ := @awaitCondition_leaving W engine job started
    (waitMode job matchedRule) error classified
  cases hrun : awaitCondition engine job started (waitMode job matchedRule) classified with
  | mk outcome waited =>
      rw [hrun] at houtcome hstate
      cases outcome with
      | error err =>
          rw [Prog.bind_apply, Prog.bind_apply, hrun]
          cases hleft : awaitCondition engine job started (waitMode job matchedRule)
              (leaving error classified) with
          | mk other after =>
              rw [hleft] at houtcome
              dsimp only at houtcome
              subst houtcome
              rfl
      | ok timedOut =>
          rw [Prog.bind_of_eq hrun, Prog.bind_of_eq (hstate timedOut waited rfl)]
          by_cases hwrote : (waitBranch (waitMode job matchedRule)).evaluates timedOut = true
          · rw [if_pos hwrote]
          · rw [if_neg hwrote]
            cases rawJson with
            | none => exact (capture_clears engine started matchedRule timedOut error waited).1
            | some text =>
                have hshown : isEmptyDocument (some text) = false := by
                  by_contra hblank
                  apply hwrote
                  exact hwritten text timedOut waited rfl (by simpa using hblank) hrun
                rw [capture_shown engine started matchedRule timedOut hshown]
                exact leaving_outcome
                  (shownResult_calm engine started matchedRule timedOut text error) waited

/-- A crawl that does not read what an earlier job left is the same whatever
that was. -/
theorem fetch_alike (hfresh : ¬ReadsLeftover engine job state) (error : Option String) :
    (fetch engine job (leaving error state)).1 = (fetch engine job state).1 := by
  have hview := leaving_view engine error
  have hstart : Projects (leaving error) (Prog.modify freshCall : Crawl W Unit)
      (Prog.modify freshCall) := .modify fun _ => rfl
  apply leaving_bind hstart
  intro _ fresh hmodify
  cases hmodify
  apply leaving_bind hview.currentTime
  intro started timed htime
  cases htime
  apply leaving_bind (hview.call _).attempt
  intro outcome launched hlaunch
  cases outcome with
  | error err => exact leaving_outcome (hview.fail _ _ _) launched
  | ok page =>
      cases (page : Bool) with
      | false => exact leaving_outcome (hview.fail _ _ _) launched
      | true =>
          have hlaunched : Launched engine state launched := by
            simp only [Prog.attempt, Prod.mk.injEq, Except.ok.injEq] at hlaunch
            exact Prod.ext hlaunch.1 hlaunch.2
          have hlistening : Projects (leaving error) (setListening (W := W) true)
              (setListening true) := .modify fun _ => rfl
          apply leaving_bind hlistening
          intro _ listening hlisten
          cases hlisten
          rw [ensure_setListening, ensure_setListening]
          apply leaving_bind (hview.goto _ _)
          intro navError navigated hgoto
          cases navError with
          | some navError =>
              exact leaving_outcome (.bind hview.drainErrorPage fun _ =>
                .bind hview.safeUrl fun _ => hview.fail _ _ _) navigated
          | none =>
              apply leaving_bind (hview.classify _ _)
              intro found classified hclassify
              apply rest_alike error
              intro text timedOut waited hraw hblank hwait
              by_contra hnone
              apply hfresh
              refine ⟨⟨launched, navigated, classified, waited, waited, found.1, found.2, timedOut,
                some text, hlaunched, hgoto, hclassify, hwait, ?_⟩, text, hraw, hblank, ?_⟩
              · rw [hraw]
                rfl
              · simpa using hnone

end Whole

/-! ## Where an error was noted -/

def keptText (deadlineMs : ℕ) (err : PyError) : Option String :=
  if err.cls = .timeoutError then some s!"timed out after {deadlineMs}ms"
  else (firstLine err.message).toOption.map (sliceTo · 200)

/-- The text that a crawl keeps of an error which one of its reading calls
raises. -/
def EngineCall.kept : EngineCall → PyError → Option String
  | evaluate _ _ deadlineMs, err => keptText deadlineMs err
  | content deadlineMs, err => keptText deadlineMs err
  | _, _ => none

/-- A failed call is on record of whose error this is kept. -/
def Noted (state : CrawlState (W × List (EngineCall × PyError))) (reason : String) : Prop :=
  ∃ failure ∈ state.world.2, failure.1.kept failure.2 = some reason

/-- The last page error is one of the crawl's own. -/
def OwnError (state : CrawlState (W × List (EngineCall × PyError))) : Prop :=
  ∀ reason, state.lastExecError = some reason → Noted state reason

section Own

theorem deliver_lastExecError {V : Type} (responses : List Response) (state : CrawlState V) :
    (state.deliver responses).lastExecError = state.lastExecError := by
  calc (state.deliver responses).lastExecError =
        ((leaving state.lastExecError state).deliver responses).lastExecError := rfl
    _ = (leaving state.lastExecError (state.deliver responses)).lastExecError := by
        rw [leaving_deliver]
    _ = state.lastExecError := rfl

theorem OwnError.of_none {state : CrawlState (W × List (EngineCall × PyError))}
    (h : state.lastExecError = none) : OwnError state := by
  intro reason hreason
  rw [h] at hreason
  cases hreason

theorem perform_record (engine : Engine W) (call : EngineCall)
    (state : CrawlState (W × List (EngineCall × PyError))) :
    (perform engine.recording call state).2.world.2 =
      state.world.2 ++ failuresOf call (engine.await call state.world.1).outcome :=
  congrArg Prod.snd (deliver_keeps _ _).2

theorem perform_recorded {engine : Engine W} {call : EngineCall} {err : PyError}
    {before after : CrawlState (W × List (EngineCall × PyError))}
    (hrun : perform engine.recording call before = (.error err, after)) :
    (call, err) ∈ after.world.2 := by
  have hrecord := perform_record engine call before
  have hfailed : (engine.await call before.world.1).outcome = .error err :=
    congrArg Prod.fst hrun
  rw [hrun, hfailed] at hrecord
  rw [hrecord]
  exact List.mem_append_right _ (List.mem_singleton_self _)

theorem noteExecError_own {call : EngineCall} {budgetMs : ℕ} {err : PyError}
    {state : CrawlState (W × List (EngineCall × PyError))} (hrecorded : (call, err) ∈ state.world.2)
    (hkept : call.kept err = keptText (budgetMs + 1000) err) :
    Ends (fun _ => OwnError) (fun _ _ => True) (noteExecError budgetMs err state) := by
  have hnoted : ∀ reason, call.kept err = some reason →
      OwnError { state with lastExecError := some reason } := by
    intro reason hreason other hother
    cases hother
    exact ⟨(call, err), hrecorded, hreason⟩
  unfold noteExecError
  split
  next htimeout =>
    apply hnoted
    rw [hkept, keptText, if_pos htimeout]
  next hother =>
    cases hline : firstLine err.message with
    | error raised => trivial
    | ok line =>
        apply hnoted
        rw [hkept, keptText, if_neg hother, hline]
        rfl

variable (engine : Engine W)

theorem pageContent_own (budgetMs : ℕ) :
    Triple (fun _ => True) (pageContent engine.recording budgetMs) (fun _ => OwnError)
      fun _ _ => True := by
  intro state _
  rw [pageContent, Prog.attempt_bind]
  cases hrun : perform engine.recording (.content (budgetMs + 1000)) state with
  | mk outcome after =>
      cases outcome with
      | ok html => exact OwnError.of_none rfl
      | error err => exact (noteExecError_own (perform_recorded hrun) rfl).bind fun _ _ hown => hown

theorem execJs_own (snippet : Snippet) (argument budgetMs : ℕ) (fallback : Json) :
    Triple (fun _ => True) (execJs engine.recording snippet argument budgetMs fallback)
      (fun _ => OwnError) fun _ _ => True := by
  intro state _
  rw [execJs, Prog.attempt_bind]
  cases hrun : perform engine.recording (.evaluate snippet argument (budgetMs + 1000)) state with
  | mk outcome after =>
      cases outcome with
      | ok value => exact OwnError.of_none rfl
      | error err => exact (noteExecError_own (perform_recorded hrun) rfl).bind fun _ _ hown => hown

theorem sleepMs_own (ms : ℕ) :
    Triple OwnError (sleepMs engine.recording ms) (fun _ => OwnError) fun _ _ => True := by
  intro state hown reason hreason
  rw [deliver_lastExecError] at hreason
  obtain ⟨failure, hfailure, hkept⟩ := hown reason hreason
  refine ⟨failure, ?_, hkept⟩
  rw [(deliver_keeps _ _).2]
  exact hfailure

theorem pollDocument_own (deadline fuel : ℕ) (previous : Option ℕ) (lastChange : ℕ) :
    Triple OwnError (pollDocument engine.recording deadline fuel previous lastChange)
      (fun _ => OwnError) fun _ _ => True := by
  induction fuel generalizing previous lastChange with
  | zero => exact .pure fun _ hown => hown
  | succ fuel ih =>
      intro state hown
      rw [pollDocument, currentTime, Prog.read_bind]
      split
      · exact hown
      · apply (pageContent_own engine 5000 state trivial).bind
        intro html read hread
        cases html with
        | none => exact hread
        | some html =>
            dsimp only
            rw [Prog.read_bind]
            split
            · exact (sleepMs_own engine _ read hread).bind fun _ slept hslept => ih _ _ slept hslept
            · split
              · exact hread
              · exact (sleepMs_own engine _ read hread).bind fun _ slept hslept =>
                  ih _ _ slept hslept

theorem settle_own (settleMs budgetMs : ℕ) :
    Triple (fun _ => True) (settle engine.recording settleMs budgetMs) (fun _ => OwnError)
      fun _ _ => True := by
  apply Triple.bind (execJs_own engine _ _ _ _)
  intro value state hown
  rw [Prog.read_bind]
  split
  · exact pollDocument_own engine _ _ _ _ state hown
  · exact hown

theorem extractHtml_own (started : ℕ) :
    Triple (fun _ => True) (extractHtml engine.recording started) (fun _ => OwnError)
      fun _ _ => True := by
  intro state _
  rw [extractHtml, remainingMs, Prog.read_bind]
  apply (pageContent_own engine _ state trivial).bind
  intro html read hread
  cases html with
  | some html => exact hread
  | none =>
      dsimp only
      rw [Prog.read_bind, Prog.read_bind]
      split
      · exact hread
      · apply (settle_own engine _ _ read trivial).bind
        intro _ settled hsettled
        rw [Prog.read_bind]
        apply (pageContent_own engine _ settled trivial).bind
        exact fun _ _ hagain => hagain

variable {engine}

theorem awaitCondition_own {job : Job} {started : ℕ} {mode : String} {timedOut : Bool}
    {state waited : CrawlState (W × List (EngineCall × PyError))}
    (hrun : awaitCondition engine.recording job started mode state = (.ok timedOut, waited))
    (hwrote : (waitBranch mode).evaluates timedOut = true) : OwnError waited := by
  have hsettle : ∀ {before}, (do
      settle engine.recording job.settleMs (← remainingMs engine.recording started)
      return false : Crawl (W × List (EngineCall × PyError)) Bool) before =
        (.ok timedOut, waited) → OwnError waited := by
    intro before hrest
    obtain ⟨left, timed, _, hrest⟩ := Prog.bind_eq_ok hrest
    obtain ⟨_, settled, hsettled, hpure⟩ := Prog.bind_eq_ok hrest
    have hown := settle_own engine job.settleMs left timed trivial
    rw [hsettled] at hown
    cases hpure
    exact hown
  unfold awaitCondition at hrun
  cases hbranch : waitBranch mode with
  | networkidle => simp [hbranch, WaitBranch.evaluates] at hwrote
  | none => simp [hbranch, WaitBranch.evaluates] at hwrote
  | settle =>
      rw [hbranch] at hrun
      exact hsettle hrun
  | selector =>
      rw [hbranch] at hrun hwrote
      obtain ⟨left, timed, _, hrest⟩ := Prog.bind_eq_ok hrun
      obtain ⟨missing, seen, _, hrest⟩ := Prog.bind_eq_ok hrest
      cases missing with
      | false => exact hsettle hrest
      | true =>
          cases hrest
          cases hwrote

end Own

/-! ## Stages seen through a view -/

section Views

variable {V : Type} {project : CrawlState W → CrawlState V} {detailed : Engine W}
  {plain : Engine V} {job : Job} {state : CrawlState W}

/-- A view in which the wait and the document are the same shows all stages. -/
def Stages.through (stages : Stages detailed job state)
    (hview : StateView project detailed plain)
    (hfresh : ∀ state, freshCall (project state) = project (freshCall state))
    (hlisten : ∀ state, startListening (project state) = project (startListening state))
    (hwait : awaitCondition plain job (plain.now (project state).world)
      (waitMode job stages.matchedRule) (project stages.classified) =
        (.ok stages.waitTimedOut, project stages.waited))
    (hread : document plain (plain.now (project state).world) stages.rawJson
      (project stages.waited) = (.ok stages.html, project stages.captured)) :
    Stages plain job (project state) where
  launched := project stages.launched
  navigated := project stages.navigated
  classified := project stages.classified
  waited := project stages.waited
  captured := project stages.captured
  rawJson := stages.rawJson
  matchedRule := stages.matchedRule
  waitTimedOut := stages.waitTimedOut
  html := stages.html
  launch := by
    have hlaunch : perform detailed .ensureBrowser (freshCall state) = _ := stages.launch
    unfold Launched
    rw [hfresh, hview.call, hlaunch]
  navigate := by
    rw [hlisten, hview.now, hview.goto, stages.navigate]
  classify := by
    rw [hview.now, hview.classify, stages.classify]
  wait := hwait
  read := hread

theorem ReadsLeftover.recording {engine : Engine W}
    {state : CrawlState (W × List (EngineCall × PyError))}
    (h : ReadsLeftover engine.recording job state) :
    ReadsLeftover engine job (state.project Prod.fst) := by
  obtain ⟨stages, text, hraw, hblank, hwrote⟩ := h
  have hmap := recording_map engine
  have hwait := hmap.awaitCondition job (engine.now state.world.1)
    (waitMode job stages.matchedRule) stages.classified
  have hread := hmap.document (engine.now state.world.1) stages.rawJson stages.waited
  have hwaited : awaitCondition engine.recording job (engine.now state.world.1)
    (waitMode job stages.matchedRule) stages.classified = _ := stages.wait
  have hshown : document engine.recording (engine.now state.world.1) stages.rawJson
    stages.waited = _ := stages.read
  rw [hwaited] at hwait
  rw [hshown] at hread
  exact ⟨stages.through hmap.view (fun _ => rfl) (fun _ => rfl) hwait hread, text, hraw, hblank,
    hwrote⟩

end Views

section Leftovers

variable {engine : Engine W} {job : Job} {state : CrawlState W}

theorem Stages.document_json (stages : Stages engine job state) {text : String}
    (hraw : stages.rawJson = some text) :
    stages.html = some text ∧ stages.captured = stages.waited := by
  have hread : ((.ok (some text), stages.waited) : Except PyError (Option String) × CrawlState W) =
      (.ok stages.html, stages.captured) := by
    rw [← stages.read, hraw]
    rfl
  obtain ⟨houtcome, hstate⟩ := Prod.mk.inj hread
  exact ⟨(Except.ok.inj houtcome).symm, hstate.symm⟩

theorem Stages.showsNothing_json (stages : Stages engine job state) {text : String}
    (hraw : stages.rawJson = some text) :
    stages.ShowsNothing ↔ isEmptyDocument (some text) = true := by
  have hhtml := (stages.document_json hraw).1
  constructor
  · intro hnothing
    by_contra hshown
    apply hnothing text
    exact ⟨hhtml, by simpa using hshown⟩
  · intro hblank shown hshows
    have hshown : some text = some shown := hhtml.symm.trans hshows.1
    injection hshown with hshown
    have hvisible := hshows.2
    rw [← hshown, hblank] at hvisible
    exact Bool.noConfusion hvisible

/-- The same stages lead to the message whatever was left, and it is there. -/
theorem ReadsLeftover.exists_stages (h : ReadsLeftover engine job state)
    (error : Option String) :
    ∃ (stages : Stages engine job (leaving error state)) (text : String),
      stages.rawJson = some text ∧ isEmptyDocument (some text) = true ∧
        (waitBranch (waitMode job stages.matchedRule)).evaluates stages.waitTimedOut = false ∧
          stages.captured.lastExecError = error := by
  obtain ⟨stages, text, hraw, hblank, hwrote⟩ := h
  have hwait := (awaitCondition_leaving error stages.classified).2 _ _ stages.wait
  simp only [hwrote, Bool.false_eq_true, if_false] at hwait
  obtain ⟨hhtml, hcaptured⟩ := stages.document_json hraw
  have hread : document engine (engine.now state.world) stages.rawJson
      (leaving error stages.waited) = (.ok stages.html, leaving error stages.captured) := by
    rw [hraw, hhtml, hcaptured]
    rfl
  exact ⟨stages.through (leaving_view engine error) (fun _ => rfl) (fun _ => rfl) hwait hread,
    text, hraw, hblank, hwrote, rfl⟩

theorem readsLeftover_leaving (error : Option String) :
    ReadsLeftover engine job (leaving error state) ↔ ReadsLeftover engine job state := by
  constructor
  · intro h
    obtain ⟨stages, text, hraw, hblank, hwrote, _⟩ := h.exists_stages state.lastExecError
    exact ⟨stages, text, hraw, hblank, hwrote⟩
  · intro h
    obtain ⟨stages, text, hraw, hblank, hwrote, _⟩ := h.exists_stages error
    exact ⟨stages, text, hraw, hblank, hwrote⟩

/-- A crawl that reads what was left fails with it. -/
theorem fetch_of_readsLeftover (h : ReadsLeftover engine job state) (error : Option String) :
    ∃ result final, fetch engine job (leaving error state) = (.ok result, final) ∧
      result.get "error" = .str ("HTML extraction failed: " ++ extractionReason error) := by
  obtain ⟨stages, text, hraw, hblank, _, hleft⟩ := h.exists_stages error
  obtain ⟨title, elapsed, hfetch⟩ := stages.fetch_fails
    ((stages.showsNothing_json hraw).mpr hblank)
  refine ⟨_, _, hfetch, ?_⟩
  rw [Dict.get_set_ne _ _ (by decide), hleft]
  rfl

/-- A crawl that explains itself came to its document, and the reason is the
last page error. -/
theorem exists_explained {result : Dict} {final : CrawlState W} {reason : String}
    (hrun : fetch engine job state = (.ok result, final))
    (herror : result.get "error" = .str ("HTML extraction failed: " ++ reason)) :
    ∃ stages : Stages engine job state, stages.ShowsNothing ∧
      reason = extractionReason stages.captured.lastExecError ∧
        final = { titled engine stages.captured with listening := false } := by
  rcases stages_or_early hrun with hstages | hearly
  · obtain ⟨stages⟩ := hstages
    by_cases hshows : ∃ text, stages.Shows text
    · obtain ⟨text, hshows⟩ := hshows
      obtain ⟨title, elapsed, hvalue⟩ := stages.fetch_eq hshows
      rw [hrun, Prod.mk.injEq, Except.ok.injEq] at hvalue
      rw [hvalue.1] at herror
      cases herror
    · push Not at hshows
      obtain ⟨title, elapsed, hvalue⟩ := stages.fetch_fails hshows
      rw [hrun, Prod.mk.injEq, Except.ok.injEq] at hvalue
      obtain ⟨rfl, hfinal⟩ := hvalue
      rw [Dict.get_set_ne _ _ (by decide)] at herror
      have hsame : Json.str ("HTML extraction failed: " ++
          extractionReason stages.captured.lastExecError) =
            .str ("HTML extraction failed: " ++ reason) := herror
      injection hsame with hsame
      exact ⟨stages, hshows, ((String.append_right_inj _).mp hsame).symm, hfinal⟩
  · obtain ⟨error, finalUrl, loadedMs, status, hearly, rfl⟩ := hearly
    have hsame : Json.str error = .str ("HTML extraction failed: " ++ reason) := herror
    injection hsame with hsame
    rw [hsame] at hearly
    simp [isEarlyError, String.toList_append, List.isPrefixOf] at hearly

/-- Two results, apart from the time that the crawl took. -/
def withoutTime (result : Dict) : Dict := result.set "loadedMs" .null

/-- Whatever an earlier job left, the result is the same, and the reason that it
gives for having no document is an error of the job's own. -/
structure Isolated (engine : Engine W) (job : Job) (state : CrawlState W) : Prop where
  same : ∀ first second, (fetch engine job (leaving first state)).1.map withoutTime =
    (fetch engine job (leaving second state)).1.map withoutTime
  own : ∀ error result reason, (fetch engine job (leaving error state)).1 = .ok result →
    result.get "error" = .str ("HTML extraction failed: " ++ reason) →
      reason = "unknown" ∨
        Noted (fetch engine.recording job (leaving error state).recorded).2 reason

theorem own_of_fresh (hfresh : ¬ReadsLeftover engine job state) {result : Dict} {reason : String}
    (hrun : (fetch engine job state).1 = .ok result)
    (herror : result.get "error" = .str ("HTML extraction failed: " ++ reason)) :
    reason = "unknown" ∨ Noted (fetch engine.recording job state.recorded).2 reason := by
  have hmap := (recording_map engine).fetch job state.recorded
  have hrecorded : (fetch engine.recording job state.recorded).1 = .ok result := by
    rw [← hrun]
    exact (congrArg Prod.fst hmap).symm
  obtain ⟨stages, hnothing, hreason, hfinal⟩ :=
    exists_explained (Prod.ext hrecorded rfl) herror
  have hown : OwnError stages.captured := by
    cases hraw : stages.rawJson with
    | none =>
        have hread := stages.read
        rw [hraw] at hread
        have hextracted := extractHtml_own engine (engine.now state.world) stages.waited trivial
        have hsame : extractHtml engine.recording (engine.now state.world) stages.waited =
          (.ok stages.html, stages.captured) := hread
        rw [hsame] at hextracted
        exact hextracted
    | some text =>
        rw [(stages.document_json hraw).2]
        apply awaitCondition_own stages.wait
        by_contra hwrote
        apply hfresh
        have hleft : ReadsLeftover engine.recording job state.recorded :=
          ⟨stages, text, hraw, (stages.showsNothing_json hraw).mp hnothing, by simpa using hwrote⟩
        exact hleft.recording
  have hrecord : (fetch engine.recording job state.recorded).2.world.2 =
      (titled engine.recording stages.captured).world.2 :=
    congrArg (fun last => last.world.2) hfinal
  rw [hreason, extractionReason]
  split
  · exact .inl rfl
  next hworded =>
    cases hlast : stages.captured.lastExecError with
    | none => simp [hlast] at hworded
    | some text =>
        obtain ⟨failure, hfailure, hkept⟩ := hown text hlast
        refine .inr ⟨failure, ?_, hkept⟩
        have hlater : failure ∈ (titled engine.recording stages.captured).world.2 := by
          rw [titled, perform_record]
          exact List.mem_append_left _ hfailure
        exact hrecord.symm ▸ hlater

theorem ReadsLeftover.not_isolated (h : ReadsLeftover engine job state) :
    ¬Isolated engine job state := by
  intro hisolated
  obtain ⟨first, _, hfirst, hunknown⟩ := fetch_of_readsLeftover h none
  obtain ⟨second, _, hsecond, hleft⟩ := fetch_of_readsLeftover h (some "left")
  have hsame := hisolated.same none (some "left")
  rw [hfirst, hsecond] at hsame
  have hresults : withoutTime first = withoutTime second := Except.ok.inj hsame
  have herrors := congrArg (Dict.get · "error") hresults
  simp only [withoutTime] at herrors
  rw [Dict.get_set_ne _ _ (by decide), Dict.get_set_ne _ _ (by decide), hunknown, hleft]
    at herrors
  injection herrors with herrors
  rw [String.append_right_inj] at herrors
  revert herrors
  decide +kernel

/-- A job is isolated from the earlier ones exactly when it does not come to a
blank JSON body after a wait that evaluated nothing. -/
theorem fetch_isolated_iff (engine : Engine W) (job : Job) (state : CrawlState W) :
    Isolated engine job state ↔ ¬ReadsLeftover engine job state := by
  constructor
  · exact fun hisolated hreads => hreads.not_isolated hisolated
  · intro hfresh
    constructor
    · intro first second
      rw [fetch_alike hfresh first, fetch_alike hfresh second]
    · intro error result reason hrun herror
      apply own_of_fresh (fun hleft => hfresh ((readsLeftover_leaving error).mp hleft)) hrun herror

end Leftovers

/-! ## A job that reports the error of another -/

def unsettledJob : Job where
  jobId := "job-1"
  url := "https://example.com/"
  waitFor := "domcontentloaded"
  settleMs := 0
  waitRules := []
  detectMs := 0

theorem unsettled_readsLeftover :
    ReadsLeftover (viewerEngine (.ok "\n")) unsettledJob (.initial 0) :=
  ⟨⟨_, _, _, _, _, some "\n", -1, false, some "\n", rfl, rfl, rfl, rfl, rfl⟩, "\n", rfl,
    by decide +kernel, by decide +kernel⟩

/-- The body is a line break; the reason is whatever stood there. -/
theorem leftover_error_reported :
    (∃ result final, fetch (viewerEngine (.ok "\n")) unsettledJob
        (leaving (some "timed out after 6000ms") (.initial 0)) = (.ok result, final) ∧
      result.get "error" = .str ("HTML extraction failed: " ++ "timed out after 6000ms")) ∧
      ¬Isolated (viewerEngine (.ok "\n")) unsettledJob (.initial 0) := by
  have htext : extractionReason (some "timed out after 6000ms") = "timed out after 6000ms" := by
    decide +kernel
  have hresult := fetch_of_readsLeftover unsettled_readsLeftover (some "timed out after 6000ms")
  rw [htext] at hresult
  exact ⟨hresult, unsettled_readsLeftover.not_isolated⟩

end MeerklyHeadless
