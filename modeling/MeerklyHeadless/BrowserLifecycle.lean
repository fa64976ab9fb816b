import MeerklyHeadless.TransitionRuns
import Mathlib.Tactic

/-!
# The life of the browser

The manager's fields are written by the launch task, by recovery tasks, by
the job that holds the lock, by `close`, and by the handlers of three kinds
of event.  A step here is one of these running from one `await` to the next.
How an engine call ends, and when an event is delivered, is the scheduler's
choice; so is every session id that is drawn.
-/

namespace MeerklyHeadless.Lifecycle

/-! ## Browsers and pages -/

/-- What one `_launch` starts: the stack it enters, its context, its profile
lock.  `sid` is the proxy session id it was started with. -/
structure Browser where
  launch : ℕ
  sid : Option ℕ
  deriving DecidableEq, Repr

structure Page where
  browser : Browser
  index : ℕ
  deriving DecidableEq, Repr

/-! ## Tasks -/

/-- Where `_launch` is suspended. -/
inductive LaunchPhase
  /-- created by `ensure_browser`, not yet run -/
  | created
  | entering (browser : Browser)
  /-- in `context.new_page`, with the pages found before it -/
  | openingPage (browser : Browser) (stale : List Page)
  /-- closing the head of the stale pages -/
  | sweeping (browser : Browser) (stale : List Page)
  deriving DecidableEq, Repr

inductive RecoverPhase
  | created
  | closing (browser : Browser)
  | sleeping
  | awaitingLaunch (launch : ℕ)
  | done
  deriving DecidableEq, Repr

/-- Where `navigate_and_extract` is, for the job that holds the lock. -/
inductive JobPhase
  | idle
  | resetting (browser : Browser)
  | awaitingLaunch (launch : ℕ)
  | serving (page : Page)
  deriving DecidableEq, Repr

inductive ClosePhase
  | notCalled
  | closing (browser : Browser)
  | returned
  deriving DecidableEq, Repr

structure BrowserConfig where
  profileResetJobs : ℤ
  proxy : Bool

/-- What a call of `clear_profile_state` found. -/
structure Clear where
  jobsServed : ℕ
  opened : List Browser
  launching : Option LaunchPhase
  deriving DecidableEq

/-- The manager's fields, its tasks, the engines behind it, and two records. -/
structure Manager where
  stack : Option Browser
  context : Option Browser
  page : Option Page
  closed : Bool
  /-- the task in `_launching` while it is not done -/
  launching : Option LaunchPhase
  jobsSinceReset : ℤ
  proxySid : Option ℕ
  /-- whether the launches that are done succeeded, in order -/
  launched : List Bool
  recoveries : List RecoverPhase
  job : JobPhase
  closing : ClosePhase
  /-- the pages of the `_close_quietly` tasks that have not started -/
  closeTasks : List Page
  /-- the stacks that were entered and whose `aclose` has not returned -/
  opened : List Browser
  browsers : ℕ
  pages : List Page
  closedPages : List Page
  /-- the contexts and pages the handlers are registered on -/
  onClose : List Browser
  onPage : List Browser
  onCrash : List Page
  jobsServed : ℕ
  clears : List Clear

variable (config : BrowserConfig)

def Manager.initial (sid : ℕ) : Manager where
  stack := none
  context := none
  page := none
  closed := false
  launching := none
  jobsSinceReset := 0
  proxySid := if config.proxy then some sid else none
  launched := []
  recoveries := []
  job := .idle
  closing := .notCalled
  closeTasks := []
  opened := []
  browsers := 0
  pages := []
  closedPages := []
  onClose := []
  onPage := []
  onCrash := []
  jobsServed := 0
  clears := []

/-! ## The browser is up, or is brought up -/

def isReady (state : Manager) : Bool :=
  !state.closed && state.context.isSome &&
    state.page.any fun page => decide (page ∉ state.closedPages)

inductive Ensured
  | raised
  | ready
  | awaiting (launch : ℕ)
  deriving DecidableEq, Repr

def ensureBrowser (state : Manager) : Manager × Ensured :=
  if state.closed then (state, .raised)
  else if isReady state then (state, .ready)
  else
    match state.launching with
    | none => ({ state with launching := some .created }, .awaiting state.launched.length)
    | some _ => (state, .awaiting state.launched.length)

/-- How an engine call of `_launch` ended; a context that was entered comes
with some pages. -/
inductive Outcome
  | raises
  | returns (pages : ℕ)
  deriving DecidableEq, Repr

def finishLaunch (succeeded : Bool) (state : Manager) : Manager :=
  { state with launching := none, launched := state.launched ++ [succeeded] }

/-- `_launch` up to `enter_async_context`. -/
def startLaunch (state : Manager) : Manager :=
  { state with
    launching := some (.entering
      ⟨state.browsers, if config.proxy then state.proxySid else none⟩)
    browsers := state.browsers + 1 }

def newPages (browser : Browser) (first count : ℕ) : List Page :=
  (List.range count).map fun offset => ⟨browser, first + offset⟩

/-- From `self._stack = stack` to `context.new_page`. -/
def publish (browser : Browser) (count : ℕ) (state : Manager) : Manager :=
  let stale := newPages browser state.pages.length count
  { state with
    stack := some browser
    context := some browser
    opened := browser :: state.opened
    onClose := browser :: state.onClose
    pages := state.pages ++ stale
    launching := some (.openingPage browser stale) }

/-- From the sweep to the end of `_launch`; `self._page` may be gone again, and
then registering on it raises. -/
def subscribe (browser : Browser) (state : Manager) : Manager :=
  match state.page with
  | none => finishLaunch false state
  | some page => finishLaunch true { state with
      onCrash := page :: state.onCrash, onPage := browser :: state.onPage }

def sweep (browser : Browser) (stale : List Page) (state : Manager) : Manager :=
  match stale with
  | [] => subscribe browser state
  | _ :: _ => { state with launching := some (.sweeping browser stale) }

/-- `self._page = await context.new_page()`. -/
def adoptPage (browser : Browser) (state : Manager) : Manager :=
  let page : Page := ⟨browser, state.pages.length⟩
  { state with page := some page, pages := state.pages ++ [page] }

def launchStep (outcome : Outcome) (state : Manager) : Option Manager :=
  match state.launching, outcome with
  | none, _ => none
  | some .created, .raises => some (finishLaunch false state)
  | some .created, .returns _ => some (startLaunch config state)
  -- the stack of this launch holds nothing yet, so its `aclose` closes nothing
  | some (.entering _), .raises => some (finishLaunch false state)
  | some (.entering browser), .returns count => some (publish browser count state)
  -- the stack and the context stay published
  | some (.openingPage _ _), .raises => some (finishLaunch false state)
  | some (.openingPage browser stale), .returns _ =>
      some (sweep browser stale (adoptPage browser state))
  -- `_close_quietly` swallows what `page.close` raises
  | some (.sweeping browser stale), _ => some (sweep browser stale.tail state)

/-! ## Teardown -/

/-- `_teardown` up to `stack.aclose`, with the stack it has to close. -/
def teardown (state : Manager) : Manager × Option Browser :=
  ({ state with stack := none, context := none, page := none }, state.stack)

/-- `aclose` has returned or raised. -/
def aclosed (browser : Browser) (state : Manager) : Manager :=
  { state with opened := state.opened.filter (· ≠ browser) }

/-! ## Event handlers -/

def onExtraPage (page : Page) (state : Manager) : Manager :=
  match state.page with
  | none => state
  | some primary =>
      if page = primary then state
      else { state with closeTasks := state.closeTasks ++ [page] }

def onContextClosed (state : Manager) : Manager :=
  { state with context := none, page := none }

def onCrash (state : Manager) : Manager :=
  { state with page := none, recoveries := state.recoveries ++ [.created] }

/-! ## Recovery and close -/

def setRecovery (index : ℕ) (phase : RecoverPhase) (state : Manager) : Manager :=
  { state with recoveries := state.recoveries.set index phase }

def recoverStep (index : ℕ) (state : Manager) : Option Manager :=
  match state.recoveries[index]? with
  | none | some .done => none
  | some .created =>
      match teardown state with
      | (state, none) => some (setRecovery index .sleeping state)
      | (state, some browser) => some (setRecovery index (.closing browser) state)
  | some (.closing browser) => some (setRecovery index .sleeping (aclosed browser state))
  | some .sleeping =>
      if state.closed then some (setRecovery index .done state)
      else
        -- what `ensure_browser` raises is logged
        match ensureBrowser state with
        | (state, .awaiting launch) =>
            some (setRecovery index (.awaitingLaunch launch) state)
        | (state, _) => some (setRecovery index .done state)
  | some (.awaitingLaunch launch) =>
      match state.launched[launch]? with
      | none => none
      | some _ => some (setRecovery index .done state)

def closeStep (state : Manager) : Option Manager :=
  match state.closing with
  | .notCalled =>
      match teardown { state with closed := true } with
      | (state, none) => some { state with closing := .returned }
      | (state, some browser) => some { state with closing := .closing browser }
  | .closing browser => some { aclosed browser state with closing := .returned }
  | .returned => none

/-! ## Jobs -/

/-- The `finally` of `navigate_and_extract`. -/
def finishJob (state : Manager) : Manager :=
  { state with
    job := .idle
    jobsSinceReset := state.jobsSinceReset + 1
    jobsServed := state.jobsServed + 1 }

/-- `page = self._page` in `_fetch`, and the crawl of that page. -/
def serve (state : Manager) : Manager :=
  match state.page with
  | none => finishJob state
  | some page => { state with job := .serving page }

/-- `_fetch` up to its first await. -/
def startFetch (state : Manager) : Manager :=
  match ensureBrowser state with
  | (state, .raised) => finishJob state
  | (state, .ready) => serve state
  | (state, .awaiting launch) => { state with job := .awaitingLaunch launch }

def resetDue (state : Manager) : Bool :=
  decide (0 < config.profileResetJobs ∧ config.profileResetJobs ≤ state.jobsSinceReset)

/-- `_reset_profile_if_due` after its teardown. -/
def resetProfile (sid : ℕ) (state : Manager) : Manager :=
  { state with
    clears := state.clears ++ [⟨state.jobsServed, state.opened, state.launching⟩]
    jobsSinceReset := 0
    proxySid := if config.proxy then some sid else state.proxySid }

/-- `navigate_and_extract`, one step; `sid` is what `generate_sid` draws if the
step draws one. -/
def jobStep (sid : ℕ) (state : Manager) : Option Manager :=
  match state.job with
  | .idle =>
      if resetDue config state then
        match teardown state with
        | (state, none) => some (startFetch (resetProfile config sid state))
        | (state, some browser) => some { state with job := .resetting browser }
      else some (startFetch state)
  | .resetting browser =>
      some (startFetch (resetProfile config sid (aclosed browser state)))
  | .awaitingLaunch launch =>
      match state.launched[launch]? with
      | none => none
      | some true => some (serve state)
      | some false => some (finishJob state)
  | .serving _ => some (finishJob state)

/-! ## The system -/

inductive Action
  | ensureBrowser
  | launch (outcome : Outcome)
  | contextCloses (browser : Browser)
  | pageCrashes (page : Page)
  | pageCloses (page : Page)
  /-- a site opens a page of its own -/
  | pageOpens (browser : Browser)
  /-- a `page` event is delivered, at any time after the page was created -/
  | pageEvent (page : Page)
  /-- a scheduled `_close_quietly` starts -/
  | closeExtra (index : ℕ)
  | recover (index : ℕ)
  | job (sid : ℕ)
  | close
  deriving DecidableEq, Repr

def step (state : Manager) : Action → Option Manager
  | .ensureBrowser => some (Lifecycle.ensureBrowser state).1
  | .launch outcome => launchStep config outcome state
  | .contextCloses browser =>
      if browser ∈ state.onClose then some (onContextClosed state) else none
  | .pageCrashes page => if page ∈ state.onCrash then some (onCrash state) else none
  | .pageCloses page =>
      if page ∈ state.pages then
        some { state with closedPages := page :: state.closedPages }
      else none
  | .pageOpens browser =>
      if browser ∈ state.opened then
        some { state with pages := state.pages ++ [⟨browser, state.pages.length⟩] }
      else none
  | .pageEvent page =>
      if page ∈ state.pages ∧ page.browser ∈ state.onPage then some (onExtraPage page state)
      else none
  | .closeExtra index =>
      if index < state.closeTasks.length then
        some { state with closeTasks := state.closeTasks.eraseIdx index }
      else none
  | .recover index => recoverStep index state
  | .job sid => jobStep config sid state
  | .close => closeStep state

end MeerklyHeadless.Lifecycle
